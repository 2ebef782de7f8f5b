import BoundSql.Proofs.Text.Numerals
import BoundSql.Sql.Fragment

/-! The tokens of a text.  `lex` cuts a text into parentheses, words and signs and tells the words
that hold queries together from all others.  What stands in quotes is cut up like the rest, so a
text is atomic only if its quotations are: none of its tokens is a parenthesis or such a word.
Texts can be read one after the other wherever no word runs across the seam (`lex_append`). -/

namespace BoundSql.Sql

inductive ClauseKind where
  | order
  | limit
  | offset
  deriving DecidableEq

inductive Token where
  | left
  | right
  | select
  | union
  | clause (kind : ClauseKind)
  /-- A keyword that starts, combines or trails queries in other ways. -/
  | reserved (keyword : String)
  /-- Any other word, or a sign; a word with a part in the syntax is in upper case. -/
  | word (text : String)
  deriving DecidableEq

namespace Token

/-- The keywords that hold queries together, in upper case. -/
def keywords : List (String × Token) :=
  [("SELECT", select), ("UNION", union), ("ALL", word "ALL"), ("BY", word "BY"),
    ("ORDER", clause .order), ("LIMIT", clause .limit), ("OFFSET", clause .offset)]
    ++ ["EXCEPT", "FETCH", "FOR", "INTERSECT", "INTO", "TABLE", "VALUES", "WITH"].map fun k =>
      (k, reserved k)

/-- The token that a word is; the case of ASCII letters does not matter for keywords. -/
def ofWord (cs : List Char) : Token :=
  (keywords.lookup (String.ofList (cs.map Char.toUpper))).getD (word (String.ofList cs))

/-- Whether a token can stand anywhere within a clause. -/
def isPlain : Token → Bool
  | word _ => true
  | _ => false

end Token

def inWord (c : Char) : Bool := c.isAlphanum || c == '_' || c == '$' || decide (128 ≤ c.toNat)

def isSpace (c : Char) : Bool := c == ' ' || (decide (9 ≤ c.toNat) && decide (c.toNat ≤ 13))

/-- The token of a word that has ended, if there is one. -/
def flush (word : List Char) : List Token := if word = [] then [] else [.ofWord word]

/-- The token that a character outside words is, if it is one. -/
def sign (c : Char) : List Token :=
  if c = '(' then [.left]
  else if c = ')' then [.right]
  else if isSpace c then []
  else [.word (String.ofList [c])]

/-- The tokens of a text that continues a word. -/
def lexFrom (word : List Char) : List Char → List Token
  | [] => flush word
  | c :: cs => if inWord c then lexFrom (word ++ [c]) cs else flush word ++ sign c ++ lexFrom [] cs

def lex (cs : List Char) : List Token := lexFrom [] cs

/-- A text of which no part ends, starts, combines or trails a query. -/
def Atomic (s : String) : Prop := ∀ t ∈ lex s.toList, t.isPlain

instance (s : String) : Decidable (Atomic s) := inferInstanceAs (Decidable (∀ t ∈ _, _))

/-- No word starts at the start of a text. -/
def NoWordFirst (cs : List Char) : Prop := ∀ c ∈ cs.head?, inWord c = false

/-- No word ends at the end of a text. -/
def NoWordLast (cs : List Char) : Prop := ∀ c ∈ cs.getLast?, inWord c = false

instance (cs : List Char) : Decidable (NoWordFirst cs) :=
  decidable_of_iff (cs.head?.all (!inWord ·) = true)
    (by cases h : cs.head? <;> simp [NoWordFirst, h])

instance (cs : List Char) : Decidable (NoWordLast cs) :=
  decidable_of_iff (cs.getLast?.all (!inWord ·) = true)
    (by cases h : cs.getLast? <;> simp [NoWordLast, h])

theorem NoWordFirst.append {a b : List Char} (ha : NoWordFirst a) (hb : NoWordFirst b) :
    NoWordFirst (a ++ b) := by
  cases a with
  | nil => exact hb
  | cons c a => exact ha

@[simp]
theorem lex_nil : lex [] = [] := rfl

theorem lexFrom_append (word : List Char) {a b : List Char} (h : NoWordFirst b) :
    lexFrom word (a ++ b) = lexFrom word a ++ lex b := by
  induction a generalizing word with
  | nil =>
    cases b with
    | nil => simp [lexFrom]
    | cons c cs =>
      have hc : inWord c = false := h c rfl
      simp [lex, lexFrom, hc, flush]
  | cons c a ih =>
    rw [List.cons_append, lexFrom, lexFrom]
    split
    · exact ih _
    · simp only [ih, List.append_assoc]

/-- No word runs across a seam before which none ends or after which none starts. -/
theorem lex_append {a b : List Char} (h : NoWordLast a ∨ NoWordFirst b) :
    lex (a ++ b) = lex a ++ lex b := by
  rcases h with h | h
  · rcases List.eq_nil_or_concat a with rfl | ⟨a, c, rfl⟩
    · rfl
    · have hc : inWord c = false := h c (by simp)
      have hfirst : ∀ cs, NoWordFirst (c :: cs) := fun cs d hd => by
        cases hd
        exact hc
      have hcons : ∀ cs, lex (c :: cs) = sign c ++ lex cs := fun cs => by
        simp [lex, lexFrom, hc, flush]
      have hsplit : ∀ cs, lex (a ++ c :: cs) = lex a ++ (sign c ++ lex cs) := fun cs => by
        rw [← hcons]
        exact lexFrom_append [] (hfirst cs)
      rw [List.concat_eq_append, List.append_assoc, List.singleton_append, hsplit, hsplit]
      simp
  · exact lexFrom_append [] h

theorem lexFrom_of_inWord {cs : List Char} (h : ∀ c ∈ cs, inWord c) (word : List Char) :
    lexFrom word cs = flush (word ++ cs) := by
  induction cs generalizing word with
  | nil => simp [lexFrom]
  | cons c cs ih =>
    rw [lexFrom, if_pos (h c (by simp)), ih (fun d hd => h d (by simp [hd]))]
    simp

theorem Token.head_keywords : ∀ k ∈ keywords, k.1.toList.head?.any Char.isUpper := by
  decide

/-- A word that does not start with a letter is no keyword. -/
theorem Token.ofWord_cons {c : Char} (h : c.toUpper.isUpper = false) (cs : List Char) :
    ofWord (c :: cs) = word (String.ofList (c :: cs)) := by
  have hnone : keywords.lookup (String.ofList ((c :: cs).map Char.toUpper)) = none := by
    rw [List.lookup_eq_none_iff]
    intro k hk
    have hletter := head_keywords k hk
    rw [bne_iff_ne]
    rintro heq
    rw [← heq, List.map_cons, String.toList_ofList, List.head?_cons, Option.any_some, h] at hletter
    cases hletter
  rw [ofWord, hnone]
  rfl

/-- A run of word characters is atomic when it does not start with a letter. -/
theorem atomic_of_inWord {s : String} {c : Char} {cs : List Char} (hs : s.toList = c :: cs)
    (hc : c.toUpper.isUpper = false) (h : ∀ d ∈ c :: cs, inWord d) : Atomic s := by
  intro t ht
  rw [hs, lex, lexFrom_of_inWord h, List.nil_append, flush, if_neg (List.cons_ne_nil c cs),
    Token.ofWord_cons hc, List.mem_singleton] at ht
  rw [ht]
  rfl

theorem inWord_of_isDigit {c : Char} (h : c.isDigit) : inWord c := by
  simp [inWord, Char.isAlphanum, h]

theorem toUpper_of_isDigit {c : Char} (h : c.isDigit) : c.toUpper.isUpper = false := by
  obtain ⟨n, hn, rfl⟩ := Text.exists_of_isDigit h
  have hall : ∀ n < 10, (Char.ofNat (48 + n)).toUpper.isUpper = false := by decide
  exact hall n hn

theorem atomic_toString (n : Nat) : Atomic (toString n) := by
  have hdigits : ∀ c ∈ (toString n).toList, c.isDigit := fun c => Text.isDigit_of_mem_toString
  cases hs : (toString n).toList with
  | nil =>
    intro t ht
    rw [hs] at ht
    cases ht
  | cons c cs =>
    rw [hs] at hdigits
    exact atomic_of_inWord hs (toUpper_of_isDigit (hdigits c (by simp))) fun d hd =>
      inWord_of_isDigit (hdigits d hd)

theorem atomic_mark (style : PlaceholderStyle) (n : Nat) : Atomic (style.mark n) := by
  cases style with
  | question => exact (by decide : Atomic "?")
  | dollar =>
    have hs : (PlaceholderStyle.dollar.mark n).toList = '$' :: (toString n).toList := by
      simp [PlaceholderStyle.mark]
    refine atomic_of_inWord hs (by decide) fun d hd => ?_
    rcases List.mem_cons.mp hd with rfl | hd
    · decide
    · exact inWord_of_isDigit (Text.isDigit_of_mem_toString hd)

end BoundSql.Sql
