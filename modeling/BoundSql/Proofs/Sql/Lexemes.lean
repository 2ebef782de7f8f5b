import BoundSql.Proofs.Sql.Texts
import Mathlib.Tactic.SplitIfs

/-! The lexemes of a text, as PostgreSQL cuts it: quoted texts are one lexeme whatever stands in
them, and comments are none.  `scan` refuses a text that leaves a quotation or comment open, so a
scanned text means the same wherever it stands between texts that it does not run into
(`scan_append`). -/

namespace BoundSql.Sql

variable {σ : Type}

inductive Lexeme where
  /-- A keyword, an unquoted name, a number or a numbered placeholder, ASCII letters in upper
  case. -/
  | word (text : String)
  | sign (c : Char)
  | literal (text : String)
  | name (text : String)
  deriving DecidableEq

def Lexeme.ofWord (cs : List Char) : Lexeme := .word (String.ofList (cs.map Char.toUpper))

inductive Quotation where
  | string
  /-- A string in which a backslash takes away the meaning of the next character. -/
  | escaping
  | identifier
  deriving DecidableEq

namespace Quotation

def mark : Quotation → Char
  | string => '\''
  | escaping => '\''
  | identifier => '"'

def lexeme (q : Quotation) (cs : List Char) : Lexeme :=
  match q with
  | string => .literal (String.ofList cs)
  | escaping => .literal (String.ofList cs)
  | identifier => .name (String.ofList cs)

end Quotation

/-- What a text is in the middle of. -/
inductive Mode where
  | blank
  | word (cs : List Char)
  | quoted (q : Quotation) (cs : List Char)
  /-- After a backslash that escapes. -/
  | escape (cs : List Char)
  /-- After a mark that ends a quotation unless it is doubled. -/
  | closing (q : Quotation) (cs : List Char)
  /-- Between two delimiters such as `$tag$`. -/
  | delimited (delimiter cs : List Char)
  | dash
  | slash
  | line
  /-- A comment inside `depth` others, with its last character. -/
  | comment (depth : Nat) (last : Char)

/-- Whether a dollar sign after a word makes it a delimiter. -/
def opensBody : List Char → Bool
  | [] => false
  | c :: tag => c == '$' && !tag.contains '$' && !tag.head?.any Char.isDigit

namespace Mode

/-- The mode after the first character of a lexeme, and the lexeme if that is all of it. -/
def start (c : Char) : List Lexeme × Mode :=
  if inWord c then ([], word [c])
  else if c = '\'' then ([], quoted .string [])
  else if c = '"' then ([], quoted .identifier [])
  else if c = '-' then ([], dash)
  else if c = '/' then ([], slash)
  else if isSpace c then ([], blank)
  else ([.sign c], blank)

/-- The first character of a lexeme, after a lexeme that it ends. -/
def startAfter (t : Lexeme) (c : Char) : List Lexeme × Mode := (t :: (start c).1, (start c).2)

/-- The lexemes that end with a character, and the mode after it. -/
def step (m : Mode) (c : Char) : List Lexeme × Mode :=
  match m with
  | blank => start c
  | word cs =>
    if opensBody cs && c == '$' then ([], delimited (cs ++ [c]) [])
    else if inWord c then ([], word (cs ++ [c]))
    else if c = '\'' ∧ (cs = ['e'] ∨ cs = ['E']) then ([], quoted .escaping [])
    else startAfter (.ofWord cs) c
  | quoted q cs =>
    if c = q.mark then ([], closing q cs)
    else if q = .escaping ∧ c = '\\' then ([], escape (cs ++ [c]))
    else ([], quoted q (cs ++ [c]))
  | escape cs => ([], quoted .escaping (cs ++ [c]))
  | closing q cs =>
    if c = q.mark then ([], quoted q (cs ++ [c])) else startAfter (q.lexeme cs) c
  | delimited delimiter cs =>
    if delimiter.isSuffixOf (cs ++ [c]) then
      ([.literal (String.ofList ((cs ++ [c]).take (cs.length + 1 - delimiter.length)))], blank)
    else ([], delimited delimiter (cs ++ [c]))
  | dash => if c = '-' then ([], line) else startAfter (.sign '-') c
  | slash => if c = '*' then ([], comment 0 ' ') else startAfter (.sign '/') c
  | line => if c = '\n' then ([], blank) else ([], line)
  | comment depth last =>
    if last = '/' ∧ c = '*' then ([], comment (depth + 1) ' ')
    else if last = '*' ∧ c = '/' then
      ([], if depth = 0 then blank else comment (depth - 1) ' ')
    else ([], comment depth c)

/-- The lexeme that ends with the text, if the text can end here. -/
def finish? : Mode → Option (List Lexeme)
  | blank => some []
  | word cs => some [.ofWord cs]
  | closing q cs => some [q.lexeme cs]
  | _ => none

/-- The mode after a text. -/
def after (m : Mode) (cs : List Char) : Mode := cs.foldl (fun m c => (m.step c).2) m

end Mode

/-- The lexemes of a text that goes on in a mode. -/
def scanFrom (m : Mode) : List Char → Option (List Lexeme)
  | [] => m.finish?
  | c :: cs => (scanFrom (m.step c).2 cs).map ((m.step c).1 ++ ·)

def scan (cs : List Char) : Option (List Lexeme) := scanFrom .blank cs

/-- Whether a character can go on with a lexeme that ends before it. -/
def joins (c : Char) : Bool := inWord c || c == '\'' || c == '"'

/-- A text in front of which every lexeme ends. -/
def FreshStart (cs : List Char) : Prop := ∀ c ∈ cs.head?, joins c = false

/-- A text at whose end no lexeme can go on. -/
def FreshEnd (cs : List Char) : Prop := ∀ c ∈ cs.getLast?, joins c = false

instance (cs : List Char) : Decidable (FreshStart cs) :=
  decidable_of_iff (cs.head?.all (!joins ·) = true) (by cases h : cs.head? <;> simp [FreshStart, h])

instance (cs : List Char) : Decidable (FreshEnd cs) :=
  decidable_of_iff (cs.getLast?.all (!joins ·) = true)
    (by cases h : cs.getLast? <;> simp [FreshEnd, h])

theorem FreshStart.append {a b : List Char} (ha : FreshStart a) (hb : FreshStart b) :
    FreshStart (a ++ b) := by
  cases a with
  | nil => exact hb
  | cons c a => exact ha

namespace Mode

/-- Where a text can end, a character that goes on with nothing is the end of a lexeme. -/
theorem step_of_finish? {m : Mode} {ts : List Lexeme} {c : Char} (hm : m.finish? = some ts)
    (hc : joins c = false) : m.step c = (ts ++ (start c).1, (start c).2) := by
  simp only [joins, Bool.or_eq_false_iff, beq_eq_false_iff_ne] at hc
  obtain ⟨⟨hword, hstring⟩, hname⟩ := hc
  have hdollar : c ≠ '$' := by
    rintro rfl
    exact absurd hword (by decide)
  cases m with
  | blank =>
    cases hm
    rfl
  | word cs =>
    cases hm
    simp [step, startAfter, hword, hstring, hdollar]
  | closing q cs =>
    cases hm
    have hmark : c ≠ q.mark := by cases q <;> assumption
    simp [step, startAfter, hmark]
  | _ => cases hm

theorem start_of_joins {c : Char} (hc : joins c = false) :
    (start c).2.finish? = none ∨ (start c).2 = blank := by
  simp only [joins, Bool.or_eq_false_iff, beq_eq_false_iff_ne] at hc
  obtain ⟨⟨hword, hstring⟩, hname⟩ := hc
  unfold start
  rw [if_neg (by simp [hword]), if_neg hstring, if_neg hname]
  repeat' split
  all_goals simp [finish?]

/-- A character that goes on with nothing leaves nothing that could go on. -/
theorem eq_blank_of_joins {m : Mode} {c : Char} (hc : joins c = false)
    (hm : (m.step c).2.finish? ≠ none) : (m.step c).2 = blank := by
  have hstart := start_of_joins hc
  have hword : inWord c = false := by
    simp only [joins, Bool.or_eq_false_iff] at hc
    exact hc.1.1
  have hmark : ∀ q : Quotation, c ≠ q.mark := by
    rintro q rfl
    cases q <;> exact absurd hc (by decide)
  cases m <;> simp only [step, startAfter, hword, hmark, if_false, Bool.false_eq_true] at hm ⊢
  case blank => exact hstart.resolve_left hm
  case closing => exact hstart.resolve_left hm
  case escape => exact absurd rfl hm
  all_goals split_ifs at hm ⊢ <;> first | rfl | exact hstart.resolve_left hm | exact absurd rfl hm

end Mode

theorem scanFrom_append {m : Mode} {a b : List Char} {ts us : List Lexeme}
    (ha : scanFrom m a = some ts) (hb : scan b = some us)
    (hseam : m.after a = .blank ∨ FreshStart b) : scanFrom m (a ++ b) = some (ts ++ us) := by
  induction a generalizing m ts with
  | nil =>
    change m.finish? = some ts at ha
    rcases hseam with hseam | hseam
    · cases (hseam : m = .blank)
      cases ha
      exact hb
    · cases b with
      | nil =>
        cases hb
        rw [List.append_nil, List.append_nil]
        exact ha
      | cons c b =>
        rw [List.nil_append, scanFrom, Mode.step_of_finish? ha (hseam c rfl)]
        obtain ⟨vs, hvs, rfl⟩ := Option.map_eq_some_iff.mp hb
        change scanFrom (Mode.start c).2 b = some vs at hvs
        change _ = some (ts ++ ((Mode.start c).1 ++ vs))
        rw [hvs, Option.map_some, List.append_assoc]
  | cons c a ih =>
    obtain ⟨vs, hvs, rfl⟩ := Option.map_eq_some_iff.mp ha
    rw [List.cons_append, scanFrom, ih hvs hseam, Option.map_some, List.append_assoc]

theorem finish?_after {m : Mode} {cs : List Char} {ts : List Lexeme}
    (h : scanFrom m cs = some ts) : (m.after cs).finish? ≠ none := by
  induction cs generalizing m ts with
  | nil =>
    change m.finish? = some ts at h
    rw [Mode.after, List.foldl_nil, h]
    exact nofun
  | cons c cs ih =>
    obtain ⟨us, hus, -⟩ := Option.map_eq_some_iff.mp h
    exact ih hus

theorem after_eq_blank {cs : List Char} {ts : List Lexeme} (h : scan cs = some ts)
    (hends : FreshEnd cs) : Mode.blank.after cs = .blank := by
  have hfinish := finish?_after h
  rcases List.eq_nil_or_concat cs with rfl | ⟨cs, c, rfl⟩
  · rfl
  · have hc : joins c = false := hends c (by simp)
    rw [List.concat_eq_append, Mode.after, List.foldl_append] at hfinish ⊢
    exact Mode.eq_blank_of_joins hc hfinish

/-- Two texts one after the other have their lexemes, unless one lexeme runs into the next. -/
theorem scan_append {a b : List Char} {ts us : List Lexeme} (ha : scan a = some ts)
    (hb : scan b = some us) (hseam : FreshEnd a ∨ FreshStart b) : scan (a ++ b) = some (ts ++ us) :=
  scanFrom_append ha hb (hseam.imp_left (after_eq_blank ha))

example : scan ("a = 'b OR c'" ++ " /* AND */ OR d").toList =
    some ([.word "A", .sign '=', .literal "b OR c"] ++ [.word "OR", .word "D"]) := by
  decide

/-- Whether a text has a first and a last character that go on with no lexeme. -/
def isGap (cs : List Char) : Bool := cs.head?.any (!joins ·) && cs.getLast?.any (!joins ·)

theorem FreshStart.gap {d : List Char} (h : isGap d) (cs : List Char) : FreshStart (d ++ cs) := by
  cases d with
  | nil => cases h
  | cons c d =>
    intro e he
    cases he
    simp only [isGap, Bool.and_eq_true] at h
    simpa using h.1

theorem FreshEnd.gap {d : List Char} (h : isGap d) : FreshEnd d := by
  intro c hc
  simp only [isGap, Bool.and_eq_true, Option.mem_def.mp hc] at h
  simpa using h.2

/-- Two texts with a gap between them. -/
theorem scan_gap {a b d : List Char} {ts us ds : List Lexeme} (ha : scan a = some ts)
    (hd : scan d = some ds) (hgap : isGap d) (hb : scan b = some us) :
    scan (a ++ (d ++ b)) = some (ts ++ (ds ++ us)) :=
  scan_append ha (scan_append hd hb (.inl (.gap hgap))) (.inr (.gap hgap b))

theorem scanFrom_word {cs : List Char} (h : ∀ c ∈ cs, inWord c ∧ c ≠ '$') (before : List Char) :
    scanFrom (.word before) cs = some [.ofWord (before ++ cs)] := by
  induction cs generalizing before with
  | nil => simp [scanFrom, Mode.finish?]
  | cons c cs ih =>
    obtain ⟨hword, hdollar⟩ := h c (by simp)
    have hstep : (Mode.word before).step c = ([], .word (before ++ [c])) := by
      simp [Mode.step, hword, hdollar]
    rw [scanFrom, hstep, ih fun d hd => h d (by simp [hd])]
    simp

/-- The lexeme of a numeral. -/
def Lexeme.number (n : Nat) : Lexeme := .word (toString n)

/-- The lexeme of a placeholder. -/
def Lexeme.mark : PlaceholderStyle → Nat → Lexeme
  | .dollar, n => .word ("$" ++ toString n)
  | .question, _ => .sign '?'

theorem digits_inWord (n : Nat) : ∀ c ∈ (toString n).toList, inWord c ∧ c ≠ '$' := by
  intro c hc
  have hdigit := Text.isDigit_of_mem_toString hc
  refine ⟨inWord_of_isDigit hdigit, ?_⟩
  rintro rfl
  exact absurd hdigit (by decide)

/-- A numeral is in upper case. -/
theorem map_toUpper_toString (n : Nat) :
    (toString n).toList.map Char.toUpper = (toString n).toList := by
  have hdigits : ∀ k < 10, (Char.ofNat (48 + k)).toUpper = Char.ofNat (48 + k) := by decide
  refine (List.map_congr_left fun c hc => ?_).trans (List.map_id _)
  obtain ⟨k, hk, rfl⟩ := Text.exists_of_isDigit (Text.isDigit_of_mem_toString hc)
  exact hdigits k hk

theorem scan_toString (n : Nat) : scan (toString n).toList = some [.number n] := by
  have hdigits := digits_inWord n
  have hword : Lexeme.ofWord (toString n).toList = .number n := by
    rw [Lexeme.ofWord, map_toUpper_toString, String.ofList_toList, Lexeme.number]
  rw [← hword]
  cases hs : (toString n).toList with
  | nil => exact absurd hs (by simp)
  | cons c cs =>
    rw [hs] at hdigits
    have hstep : Mode.blank.step c = ([], .word [c]) := by
      simp [Mode.step, Mode.start, (hdigits c (by simp)).1]
    rw [scan, scanFrom, hstep, scanFrom_word fun d hd => hdigits d (by simp [hd])]
    rfl

theorem scan_mark (style : PlaceholderStyle) (n : Nat) :
    scan (style.mark n).toList = some [.mark style n] := by
  cases style with
  | question => exact (by decide : scan "?".toList = some [.sign '?'])
  | dollar =>
    have hs : (PlaceholderStyle.dollar.mark n).toList = '$' :: (toString n).toList := by
      simp [PlaceholderStyle.mark]
    have hupper : ('$' :: (toString n).toList).map Char.toUpper =
        (PlaceholderStyle.dollar.mark n).toList := by
      rw [hs, List.map_cons, map_toUpper_toString]
      rfl
    have hstep : Mode.blank.step '$' = ([], .word ['$']) := rfl
    rw [hs, scan, scanFrom, hstep, scanFrom_word (digits_inWord n), List.singleton_append,
      Lexeme.ofWord, hupper, String.ofList_toList]
    rfl

end BoundSql.Sql
