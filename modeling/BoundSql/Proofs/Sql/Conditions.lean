import BoundSql.Proofs.Sql.Where

/-! What a WHERE clause is read as.  `readConditions` cuts a clause at the connectives outside
groups, where the first AND after a BETWEEN belongs to it, takes the operands of AND together before
those of OR, and tells by the first sign or word of its test what each operand tests.
`readConditions_whereClause` shows that this gives back the predicates that a clause was made
from. -/

namespace BoundSql

open Sql

variable {σ : Type}

namespace Sql

/-- What a condition is read as, the column being all that stands before the test. -/
inductive Test where
  | comparison (column : List Lexeme) (op : Comparison) (slot : Lexeme)
  | range (column : List Lexeme) (negated : Bool) (low high : Lexeme)
  | membership (column : List Lexeme) (negated : Bool) (slots : List Lexeme)
  | nullness (column : List Lexeme) (negated : Bool)
  | constant (value : Bool)
  /-- A condition that tests no placeholders and is none of the others. -/
  | other (ts : List Lexeme)
  deriving DecidableEq

def isMark : Lexeme → Bool
  | .sign c => c == '?'
  | .word s => s.toList.head? == some '$'
  | _ => false

/-- The comparison at the start of a test, and what is left of the test. -/
def comparison? : List Lexeme → Option (Comparison × List Lexeme)
  | .sign '=' :: ts => some (.eq, ts)
  | .sign '!' :: .sign '=' :: ts => some (.ne, ts)
  | .sign '<' :: .sign '>' :: ts => some (.ne, ts)
  | .sign '>' :: .sign '=' :: ts => some (.ge, ts)
  | .sign '>' :: ts => some (.gt, ts)
  | .sign '<' :: .sign '=' :: ts => some (.le, ts)
  | .sign '<' :: ts => some (.lt, ts)
  | .word "LIKE" :: ts => some (.like, ts)
  | .word "NOT" :: .word "LIKE" :: ts => some (.notLike, ts)
  | .word "ILIKE" :: ts => some (.ilike, ts)
  | .word "NOT" :: .word "ILIKE" :: ts => some (.notIlike, ts)
  | _ => none

/-- The placeholders of a list that ends the test. -/
def slots? : List Lexeme → Option (List Lexeme)
  | [x, .sign ')'] => if isMark x then some [x] else none
  | x :: .sign ',' :: ts => if isMark x then (slots? ts).map (x :: ·) else none
  | _ => none

namespace Test

def range? (column : List Lexeme) (negated : Bool) : List Lexeme → Option Test
  | [low, .word "AND", high] =>
    if isMark low && isMark high then some (.range column negated low high) else none
  | _ => none

def comparison? (column ts : List Lexeme) : Option Test :=
  match Sql.comparison? ts with
  | some (op, [x]) => if isMark x then some (.comparison column op x) else none
  | _ => none

/-- The test of a column. -/
def ofColumn? (column : List Lexeme) : List Lexeme → Option Test
  | [.word "IS", .word "NULL"] => some (.nullness column false)
  | [.word "IS", .word "NOT", .word "NULL"] => some (.nullness column true)
  | .word "BETWEEN" :: ts => range? column false ts
  | .word "NOT" :: .word "BETWEEN" :: ts => range? column true ts
  | .word "IN" :: .sign '(' :: ts => (slots? ts).map (.membership column false)
  | .word "NOT" :: .word "IN" :: .sign '(' :: ts => (slots? ts).map (.membership column true)
  | ts => comparison? column ts

def constant? : List Lexeme → Option Test
  | [.word "1", .sign '=', .word "0"] => some (.constant false)
  | [.word "1", .sign '=', .word "1"] => some (.constant true)
  | _ => none

end Test

/-- The signs and words that can start a test, and the connectives. -/
def testStarts : List Lexeme :=
  ['=', '!', '<', '>'].map .sign
    ++ ["LIKE", "ILIKE", "NOT", "BETWEEN", "IN", "IS", "AND", "OR"].map .word

/-- Cuts a condition in front of the first test outside groups. -/
def cutTest (s : Nesting) : List Lexeme → List Lexeme × List Lexeme
  | [] => ([], [])
  | t :: ts =>
    if s.depth = 0 ∧ t ∈ testStarts then ([], t :: ts)
    else (t :: (cutTest (s.next t) ts).1, (cutTest (s.next t) ts).2)

def Test.of (ts : List Lexeme) : Test :=
  ((Test.ofColumn? (cutTest {} ts).1 (cutTest {} ts).2).or (Test.constant? ts)).getD (.other ts)

/-- The operands that follow a run of operands of AND, one list for each operand of OR. -/
def runsFrom {α : Type} (run : List α) : List (Connective × α) → List (List α)
  | [] => [run]
  | (.and, x) :: rest => runsFrom (run ++ [x]) rest
  | (.or, x) :: rest => run :: runsFrom [x] rest

/-- What a condition is read as: a disjunction of conjunctions of tests. -/
def readConditions (ts : List Lexeme) : List (List Test) :=
  (runsFrom [(cut {} ts).first] (cut {} ts).rest).map (List.map Test.of)

/-! ### Cutting -/

theorem cutTest_append {s : Nesting} {column : List Lexeme} {t : Lexeme}
    (hnesting : (column.foldl Nesting.next s).depth = 0) (hcolumn : (cutTest s column).2 = [])
    (ht : t ∈ testStarts) (ts : List Lexeme) :
    cutTest s (column ++ t :: ts) = (column, t :: ts) := by
  induction column generalizing s with
  | nil => exact if_pos ⟨hnesting, ht⟩
  | cons u column ih =>
    rw [cutTest] at hcolumn
    split at hcolumn
    · cases hcolumn
    · rename_i hu
      rw [List.cons_append, cutTest, if_neg hu, ih hnesting hcolumn]

theorem connectives_of_cutTest {s : Nesting} {ts : List Lexeme} (h : (cutTest s ts).2 = []) :
    connectives s ts = [] := by
  induction ts generalizing s with
  | nil => rfl
  | cons t ts ih =>
    rw [cutTest] at h
    split at h
    · cases h
    · rename_i ht
      have hor : ¬ (s.depth = 0 ∧ t = .word "OR") := by
        rintro ⟨hs, rfl⟩
        exact ht ⟨hs, by decide⟩
      have hand : ¬ (s = {} ∧ t = .word "AND") := by
        rintro ⟨rfl, rfl⟩
        exact ht ⟨rfl, by decide⟩
      rw [connectives, Nesting.connective?, if_neg hor, if_neg hand, ih h]
      rfl

/-- A condition is cut at the connectives between its parts when these have none outside groups. -/
theorem cut_joined {α : Type} {connective : α → Connective} {text : α → List Lexeme} {a : α}
    {as : List α} (h : ∀ b ∈ a :: as, Neutral (text b)) :
    cut {} (joined connective text (a :: as)) =
      ⟨text a, as.map fun b => (connective b, text b)⟩ := by
  induction as generalizing a with
  | nil => exact cut_eq_of_connectives (h a (by simp)).connectives
  | cons b as ih =>
    have ha := h a (by simp)
    rw [joined, cut_connective ha.complete, cut_eq_of_connectives ha.connectives,
      ih fun c hc => h c (List.mem_cons_of_mem a hc)]
    rfl

/-- Runs of operands are the groups of the chain that they are cut from. -/
theorem runsFrom_map {α β : Type} (connective : α → Connective) (f : α → β) {run : List α}
    (hne : run ≠ []) (hrun : run.IsChain fun _ b => connective b = .and) (as : List α) :
    runsFrom (run.map f) (as.map fun b => (connective b, f b)) =
      (groups connective (run ++ as)).map (List.map f) := by
  have hchain : ∀ {bs : List α}, (bs.IsChain fun _ b => connective b = .and) →
      bs.IsChain fun _ b => connective b == .and := fun h => h.imp fun _ _ hb => beq_iff_eq.mpr hb
  -- The run is the group that is still open: AND makes it longer, and OR closes it.
  induction as generalizing run with
  | nil =>
    rw [List.append_nil, groups, List.splitBy_of_isChain hne (hchain hrun)]
    rfl
  | cons b as ih =>
    cases hb : connective b with
    | and =>
      have hmore : (run ++ [b]).IsChain fun _ b => connective b = .and := by
        rw [List.isChain_append]
        refine ⟨hrun, .singleton b, fun x _ y hy => ?_⟩
        cases hy
        exact hb
      have hrest := ih (by simp) hmore
      rw [List.map_append, List.append_assoc] at hrest
      rw [List.map_cons, hb]
      exact hrest
    | or =>
      have hor : (connective b == Connective.and) = false := by rw [hb]; rfl
      have hseam : ∀ x ∈ run.getLast?, (fun (_ b : α) => connective b == .and) x b = false :=
        fun _ _ => hor
      have hrest := ih (List.cons_ne_nil b []) (.singleton b)
      rw [groups, List.splitBy_append_cons _ hseam, List.splitBy_of_isChain hne (hchain hrun),
        List.map_cons, hb]
      exact congrArg (run.map f :: ·) hrest

/-! ### Tests -/

theorem comparison?_lexemes (op : Comparison) (style : PlaceholderStyle) (n : Nat) :
    comparison? (op.lexemes ++ [.mark style n]) = some (op, [.mark style n]) := by
  cases op <;> cases style <;> rfl

theorem isMark_mark (style : PlaceholderStyle) (n : Nat) : isMark (.mark style n) := by
  cases style with
  | question => rfl
  | dollar => simp [Lexeme.mark, isMark]

theorem slots?_slotLexemes (style : PlaceholderStyle) (n : Nat) (x : σ) (xs : List σ) :
    slots? (slotLexemes style n (x :: xs) ++ [.sign ')']) =
      some ((List.range' n (xs.length + 1)).map (.mark style)) := by
  induction xs generalizing n x with
  | nil => cases style <;> simp [slotLexemes, slots?, isMark_mark]
  | cons y xs ih =>
    have hrest := ih (n + 1) y
    rw [slotLexemes, List.cons_append, List.cons_append, slots?, if_pos (isMark_mark style n),
      hrest]
    rfl

theorem Test.comparison?_mark (column : List Lexeme) (op : Comparison) (style : PlaceholderStyle)
    (n : Nat) :
    ofColumn? column (op.lexemes ++ [.mark style n]) =
      some (.comparison column op (.mark style n)) := by
  have hcomparison : Test.comparison? column (op.lexemes ++ [.mark style n]) =
      some (.comparison column op (.mark style n)) := by
    rw [Test.comparison?, comparison?_lexemes]
    exact if_pos (isMark_mark style n)
  rw [← hcomparison]
  cases op <;> cases style <;> rfl

end Sql

/-! ### Conditions -/

/-- The lexemes of a text; there are none for a text that leaves something open. -/
def lexemesOf (s : String) : List Lexeme := (scan s.toList).getD []

/-- What the condition of a predicate tests, its first slot numbered `n`.  A text is read by
itself. -/
def Condition.readAs (style : PlaceholderStyle) (n : Nat) : Condition σ → Test
  | .raw text => .of (lexemesOf text)
  | .compare column op _ => .comparison (lexemesOf column) op (.mark style n)
  | .between column negated _ _ =>
    .range (lexemesOf column) negated (.mark style n) (.mark style (n + 1))
  | .membership _ negated [] => .constant negated
  | .membership column negated (x :: xs) =>
    .membership (lexemesOf column) negated
      ((List.range' n (x :: xs).length).map (.mark style))
  | .nullness column negated => .nullness (lexemesOf column) negated

/-- A text that is one operand, with connectives inside groups only. -/
def SingleText (s : String) : Prop :=
  (scan s.toList).any fun ts => decide (Complete ts ∧ connectives {} ts = [])

/-- A text with tests and connectives inside groups only. -/
def ColumnText (s : String) : Prop :=
  (scan s.toList).any fun ts => decide (Complete ts ∧ (cutTest {} ts).2 = [])

/-- Whether the text of a raw condition is a single condition, and the column of any other
tests nothing. -/
def Condition.IsSingle : Condition σ → Prop
  | .raw text => SingleText text
  | c => ColumnText c.column

instance (s : String) : Decidable (SingleText s) := inferInstanceAs (Decidable (_ = true))

instance (s : String) : Decidable (ColumnText s) := inferInstanceAs (Decidable (_ = true))

instance : (c : Condition σ) → Decidable c.IsSingle
  | .raw text => inferInstanceAs (Decidable (SingleText text))
  | .compare column _ _ | .between column _ _ _ | .membership column _ _ | .nullness column _ =>
    inferInstanceAs (Decidable (ColumnText column))

theorem SingleText.neutral {s : String} (h : SingleText s) :
    scan s.toList = some (lexemesOf s) ∧ Neutral (lexemesOf s) := by
  cases hs : scan s.toList with
  | none => simp [SingleText, hs] at h
  | some ts =>
    simp only [SingleText, hs, Option.any_some, decide_eq_true_eq] at h
    rw [lexemesOf, hs]
    exact ⟨rfl, h.1, h.2⟩

theorem ColumnText.cutTest {s : String} (h : ColumnText s) :
    scan s.toList = some (lexemesOf s) ∧ Complete (lexemesOf s) ∧
      (cutTest {} (lexemesOf s)).2 = [] := by
  cases hs : scan s.toList with
  | none => simp [ColumnText, hs] at h
  | some ts =>
    simp only [ColumnText, hs, Option.any_some, decide_eq_true_eq] at h
    rw [lexemesOf, hs]
    exact ⟨rfl, h⟩

theorem ColumnText.single {s : String} (h : ColumnText s) : SingleText s := by
  obtain ⟨hscan, hcomplete, htest⟩ := h.cutTest
  have hdecide : Complete (lexemesOf s) ∧ connectives {} (lexemesOf s) = [] :=
    ⟨hcomplete, connectives_of_cutTest htest⟩
  rw [SingleText, hscan]
  simpa using hdecide

variable {c : Condition σ}

theorem Condition.IsSingle.singleText (h : c.IsSingle) : SingleText c.column := by
  cases c with
  | raw text => exact h
  | _ => exact ColumnText.single h

/-- The test of a column is read as it stands behind the column. -/
theorem test_of_column {column : String} (h : ColumnText column) {t : Lexeme}
    (ht : t ∈ testStarts) {ts : List Lexeme} {test : Test}
    (htest : Test.ofColumn? (lexemesOf column) (t :: ts) = some test) :
    Test.of (lexemesOf column ++ t :: ts) = test := by
  obtain ⟨_, hcomplete, hcut⟩ := h.cutTest
  have hdepth : ((lexemesOf column).foldl Nesting.next {}).depth = 0 := by rw [hcomplete]
  rw [Test.of, cutTest_append hdepth hcut ht, htest]
  rfl

theorem Condition.readAs_lexemes (style : PlaceholderStyle) (n : Nat) (h : c.IsSingle) :
    Test.of (c.lexemes style n (lexemesOf c.column)) = c.readAs style n := by
  cases c with
  | raw text => rfl
  | compare column op x =>
    have hread := Test.comparison?_mark (lexemesOf column) op style n
    cases op <;> exact test_of_column h (by decide) hread
  | between column negated low high =>
    have hmarks : (isMark (.mark style n) && isMark (.mark style (n + 1))) = true := by
      rw [isMark_mark, isMark_mark]
      rfl
    have hrange : Test.range? (lexemesOf column) negated
        [.mark style n, .word "AND", .mark style (n + 1)] =
          some (.range (lexemesOf column) negated (.mark style n) (.mark style (n + 1))) :=
      if_pos hmarks
    cases negated <;> exact test_of_column h (by decide) hrange
  | membership column negated xs =>
    cases xs with
    | nil => cases negated <;> rfl
    | cons x xs =>
      have hslots := congrArg (Option.map (Test.membership (lexemesOf column) negated))
        (slots?_slotLexemes style n x xs)
      cases negated <;> exact test_of_column h (by decide) hslots
  | nullness column negated => cases negated <;> exact test_of_column h (by decide) rfl

theorem Condition.neutral_lexemes (style : PlaceholderStyle) (n : Nat) (h : c.IsSingle) :
    Neutral (c.lexemes style n (lexemesOf c.column)) := by
  obtain hneutral | ⟨test, htest, heq⟩ := c.lexemes_eq style n (lexemesOf c.column)
  · exact hneutral
  · exact heq ▸ h.singleText.neutral.2.append htest

/-! ### Clauses -/

theorem Predicate.scanned_eq {style : PlaceholderStyle} {p : Nat × Predicate σ}
    (h : p.2.condition.IsSingle) :
    scanned style p = p.2.condition.lexemes style p.1 (lexemesOf p.2.condition.column) := by
  rw [scanned, Condition.scan_fragment h.singleText.neutral.1 p.1, Option.getD_some]

theorem SingleText.completeText {s : String} (h : SingleText s) : CompleteText s := by
  rw [CompleteText, h.neutral.1]
  simpa using h.neutral.2.complete

theorem scan_whereClause (style : PlaceholderStyle) {p : Predicate σ} {rest : List (Predicate σ)}
    (h : ∀ q ∈ p :: rest, CompleteText q.condition.column) (n : Nat) :
    scan ((whereClause (p :: rest)).chars style n) =
      some (.word "WHERE" :: joined (fun q => q.2.connective) (Predicate.scanned style)
        (numberFrom n (p :: rest))) := by
  have hkeyword : scan " WHERE ".toList = some [.word "WHERE"] := by decide
  rw [whereClause, Fragment.append_assoc, Fragment.chars_append, Fragment.chars_text,
    Fragment.slots_text]
  exact scan_append hkeyword (scan_chain style h n) (.inl (by decide))

/-- The text of a WHERE clause is read group by group. -/
theorem exists_readConditions (style : PlaceholderStyle) (n : Nat) {ps : List (Predicate σ)}
    (hps : ps ≠ []) (h : ∀ p ∈ ps, p.condition.IsSingle) :
    ∃ ts, scan ((whereClause ps).chars style n) = some (.word "WHERE" :: ts) ∧
      readConditions ts =
        (groups (fun p => p.2.connective) (numberFrom n ps)).map
          (List.map fun p => p.2.condition.readAs style p.1) := by
  obtain ⟨p, rest, rfl⟩ := List.exists_cons_of_ne_nil hps
  have hnumbered : ∀ q ∈ numberFrom n (p :: rest), q.2.condition.IsSingle := fun q hq =>
    h q.2 (mem_of_mem_numberFrom hq)
  have hneutral : ∀ q ∈ numberFrom n (p :: rest), Neutral (Predicate.scanned style q) := by
    intro q hq
    rw [Predicate.scanned_eq (hnumbered q hq)]
    exact Condition.neutral_lexemes style q.1 (hnumbered q hq)
  refine ⟨_, scan_whereClause style (fun q hq => (h q hq).singleText.completeText) n, ?_⟩
  rw [numberFrom] at hnumbered hneutral ⊢
  rw [readConditions, cut_joined hneutral]
  have hruns := runsFrom_map (fun q : Nat × Predicate σ => q.2.connective) (Predicate.scanned style)
    (List.cons_ne_nil (n, p) []) (.singleton _)
    (numberFrom (n + p.slotCount) rest)
  rw [List.map_singleton, List.singleton_append] at hruns
  rw [hruns, List.map_map]
  refine List.map_congr_left fun g hg => ?_
  rw [Function.comp_apply, List.map_map]
  refine List.map_congr_left fun q hq => ?_
  have hmem : q ∈ (n, p) :: numberFrom (n + p.slotCount) rest := by
    have hq := List.mem_flatten_of_mem hg hq
    rwa [groups, List.flatten_splitBy] at hq
  rw [Function.comp_apply, Predicate.scanned_eq (hnumbered q hmem)]
  exact Condition.readAs_lexemes style q.1 (hnumbered q hmem)

/-- A WHERE clause is read as the disjunction of the groups of its predicates, each predicate as
what its condition tests, with its column, its operator and its slots by their numbers.  The
connective of the first predicate plays no part. -/
theorem readConditions_whereClause (style : PlaceholderStyle) (n : Nat) {ps : List (Predicate σ)}
    (hps : ps ≠ []) (h : ∀ p ∈ ps, p.condition.IsSingle) :
    ∃ ts, scan ((whereClause ps).chars style n) = some (.word "WHERE" :: ts) ∧
      readConditions ts =
        (groups (fun p => p.2.connective) (numberFrom n ps)).map
          (List.map fun p => p.2.condition.readAs style p.1) ∧
      ∀ c : Connective,
        whereClause (ps.modifyHead fun p => { p with connective := c }) = whereClause ps := by
  obtain ⟨ts, hts, hread⟩ := exists_readConditions style n hps h
  refine ⟨ts, hts, hread, fun c => ?_⟩
  obtain ⟨p, rest, rfl⟩ := List.exists_cons_of_ne_nil hps
  rfl

/-- Every kind of condition, with an AND behind a BETWEEN, an OR inside a group and lists without
elements. -/
def everyTest : List (Predicate Hole) :=
  [⟨.or, .between "a" true () ()⟩, ⟨.and, .compare "lower(b)" .notIlike ()⟩,
    ⟨.or, .membership "c" false []⟩, ⟨.or, .raw "d BETWEEN 1 AND 2"⟩,
    ⟨.and, .raw "(e OR \"is\")"⟩, ⟨.and, .membership "t.f" true [(), ()]⟩,
    ⟨.and, .nullness "g" true⟩, ⟨.or, .membership "h" true []⟩]

theorem readConditions_everyTest :
    ∃ ts, scan ((whereClause everyTest).chars .dollar 1) = some (.word "WHERE" :: ts) ∧
      readConditions ts =
        [[.range [.word "A"] true (.word "$1") (.word "$2"),
            .comparison [.word "LOWER", .sign '(', .word "B", .sign ')'] .notIlike (.word "$3")],
          [.constant false],
          [.other [.word "D", .word "BETWEEN", .word "1", .word "AND", .word "2"],
            .other [.sign '(', .word "E", .word "OR", .name "is", .sign ')'],
            .membership [.word "T", .sign '.', .word "F"] true [.word "$4", .word "$5"],
            .nullness [.word "G"] true],
          [.constant true]] ∧
      ∀ c : Connective, whereClause (everyTest.modifyHead fun p => { p with connective := c }) =
        whereClause everyTest := by
  obtain ⟨ts, hts, hread, hfirst⟩ :=
    readConditions_whereClause .dollar 1 (by decide : everyTest ≠ []) (by decide)
  exact ⟨ts, hts, hread.trans (by decide), hfirst⟩

end BoundSql
