import BoundSql.Proofs.Text.Numerals
import BoundSql.Proofs.Text.Runs
import BoundSql.Toml.Document

/-! Texts and integers in writing.  A text is written in double quotes with escapes, and an integer
in decimal digits.  Both read back before whatever ends a value (`value_writeString`,
`value_toString`). -/

namespace BoundSql.Toml

/-! ### Texts -/

/-- A quote and a backslash stand behind a backslash, and a control is written as its code
point. -/
def escapeChar (c : Char) : List Char :=
  if c = '"' ∨ c = '\\' then ['\\', c]
  else if isControl c then
    ['\\', 'u', '0', '0', (c.toNat / 16).digitChar, (c.toNat % 16).digitChar]
  else [c]

def writeString (s : String) : List Char := '"' :: (s.toList.flatMap escapeChar ++ ['"'])

theorem codePoint?_append {digits : List Char} {count : Nat} (h : digits.length = count)
    (rest : List Char) : codePoint? count (digits ++ rest) = codePoint? count digits := by
  subst h
  rw [codePoint?, codePoint?, List.take_left, List.take_length]

theorem escape?_control {c : Char} (h : isControl c) (rest : List Char) :
    escape? 'u' ('0' :: '0' :: (c.toNat / 16).digitChar :: (c.toNat % 16).digitChar :: rest) =
      some (c, 4) := by
  have hlow : c.toNat < 128 := by
    simp only [isControl, Bool.or_eq_true, Bool.and_eq_true, decide_eq_true_eq] at h
    obtain ⟨hlow, _⟩ | rfl := h
    · omega
    · decide
  have hall : ∀ n < 128, codePoint? 4 ['0', '0', (n / 16).digitChar, (n % 16).digitChar] =
      some (Char.ofNat n, 4) := by
    decide +kernel
  have hlength : ['0', '0', (c.toNat / 16).digitChar, (c.toNat % 16).digitChar].length = 4 := rfl
  have hc := hall c.toNat hlow
  rw [Char.ofNat_toNat, ← codePoint?_append hlength rest] at hc
  exact hc

/-- Reading a text gives back what was written, whatever stands behind the closing quote. -/
theorem basicBody_escaped (cs rest : List Char) :
    basicBody (cs.flatMap escapeChar ++ '"' :: rest) = some (cs, rest) := by
  induction cs with
  | nil =>
    rw [List.flatMap_nil, List.nil_append, basicBody]
  | cons c cs ih =>
    rw [List.flatMap_cons, List.append_assoc, escapeChar]
    by_cases hquote : c = '"' ∨ c = '\\'
    · rw [if_pos hquote]
      have hescape : ∀ more, escape? c more = some (c, 0) := by
        obtain rfl | rfl := hquote <;> exact fun _ => rfl
      simp only [List.cons_append, List.nil_append]
      rw [basicBody, hescape]
      simp [before, ih]
    · rw [if_neg hquote]
      obtain ⟨hc, hb⟩ := not_or.mp hquote
      cases hcontrol : isControl c with
      | true =>
        simp only [if_true, List.cons_append, List.nil_append]
        rw [basicBody, escape?_control hcontrol]
        simp [before, ih]
      | false =>
        simp only [Bool.false_eq_true, if_false, List.cons_append, List.nil_append]
        rw [basicBody]
        · simp [hcontrol, hb, before, ih]
        · exact hc
        · rintro letter more rfl
          exact absurd rfl hb

theorem lineString_writeString (s : String) (rest : List Char) :
    lineString (writeString s ++ rest) = some (s, rest) := by
  rw [writeString, List.cons_append, List.append_assoc, List.singleton_append, lineString,
    basicBody_escaped]
  exact congrArg (fun t => some (t, rest)) String.ofList_toList

/-! ### What ends a value -/

/-- Characters that stand behind a value, with nothing between. -/
def isEnd (c : Char) : Bool := [',', ']', '\x7d', '\n'].contains c

/-- A text that can stand behind a value. -/
def Ends (rest : List Char) : Prop := ∀ c ∈ rest.head?, isEnd c

theorem ends_cons {c : Char} (h : isEnd c) (rest : List Char) : Ends (c :: rest) := by
  rintro d hd
  cases hd
  exact h

/-- Characters that a gap consists of, or that a gap can start with. -/
def isGap (c : Char) : Bool := [' ', '\t', '\n', '\r', '#'].contains c

theorem skipGap_of_not_isGap {c : Char} (h : isGap c = false) (cs : List Char) :
    skipGap false (c :: cs) = c :: cs := by
  simp only [isGap, List.contains_cons, List.contains_nil, Bool.or_false, Bool.or_eq_false_iff,
    beq_eq_false_iff_ne] at h
  obtain ⟨hblank, htab, hbreak, hreturn, hmark⟩ := h
  rw [skipGap.eq_4]
  · simp [isGapBlank, hblank, htab, hmark]
  · exact hbreak
  · exact fun _ h => absurd h hreturn

theorem anyString_writeString (s : String) {rest : List Char} (h : Ends rest) :
    anyString (writeString s ++ rest) = some (s, rest) := by
  rw [← lineString_writeString]
  unfold anyString
  split
  · rename_i more heq
    -- Two quotes are all of an empty text, and no third one stands behind it.
    simp only [writeString, List.cons_append, List.append_assoc, List.cons.injEq, true_and] at heq
    cases hs : s.toList with
    | nil =>
      rw [hs] at heq
      cases rest with
      | nil => cases heq
      | cons c rest =>
        obtain ⟨rfl, _⟩ := List.cons.inj (List.cons.inj heq).2
        cases h _ rfl
    | cons c cs =>
      rw [hs, List.flatMap_cons, escapeChar] at heq
      split at heq
      · cases heq
      · rename_i hquote
        split at heq
        · cases heq
        · obtain ⟨rfl, _⟩ := List.cons.inj heq
          exact absurd (.inl rfl) hquote
  · rename_i heq
    cases heq
  · rfl

/-! ### Integers and truth values -/

theorem digits?_of_isDigit {cs : List Char} (hne : cs ≠ []) (h : ∀ c ∈ cs, c.isDigit) :
    digits? Char.isDigit cs = some cs := by
  induction cs with
  | nil => exact absurd rfl hne
  | cons c cs ih =>
    have hc := h c List.mem_cons_self
    cases cs with
    | nil => rw [digits?, if_pos hc]
    | cons d ds =>
      have hd := h d (by simp)
      have hrest := ih (List.cons_ne_nil d ds) fun e he => h e (List.mem_cons_of_mem _ he)
      rw [digits?, if_pos hc, hrest, Option.map_some]
      · exact List.cons_ne_nil d ds
      · -- An underscore is no digit.
        rintro rest heq
        cases heq
        cases hd

theorem decimalDigits?_of_isDigit {cs : List Char} (hne : cs ≠ []) (h : ∀ c ∈ cs, c.isDigit)
    (hzero : cs.head? = some '0' → cs.length = 1) : decimalDigits? cs = some cs := by
  rw [decimalDigits?, digits?_of_isDigit hne h]
  split
  · rename_i c rest heq
    obtain rfl := Option.some.inj heq
    have hlength := hzero rfl
    simp at hlength
  · rfl

theorem decimalDigits?_toString (n : Nat) :
    decimalDigits? (toString n).toList = some (toString n).toList := by
  refine decimalDigits?_of_isDigit (Text.toList_toString_ne_nil n)
    (fun _ => Text.isDigit_of_mem_toString) fun hhead => ?_
  -- Of the numerals, only that of zero starts with a zero, and it has no other digit.
  rw [Nat.toString_eq_repr, Nat.toList_repr] at hhead ⊢
  obtain rfl | hpos := Nat.eq_zero_or_pos n
  · rfl
  · exact absurd hhead (Text.head?_toDigits hpos)

theorem integer?_of_isDigit {cs : List Char} (h : ∀ c ∈ cs, c.isDigit) :
    integer? cs = (decimalDigits? cs).map fun ds => (Text.ofDigits 10 ds : Int) := by
  have hsecond : ∀ {a b : Char} {rest : List Char}, cs = a :: b :: rest → b.isDigit := by
    rintro a b rest rfl
    exact h b (by simp)
  unfold integer?
  split
  · cases hsecond rfl
  · cases hsecond rfl
  · cases hsecond rfl
  · have hsign : cutSign cs = (false, cs) := by
      unfold cutSign
      split
      · cases h '-' List.mem_cons_self
      · cases h '+' List.mem_cons_self
      · rfl
    rw [hsign]
    rfl

theorem integer?_toString (n : Int) : integer? (toString n).toList = some n := by
  cases n with
  | ofNat m =>
    have htext : toString (Int.ofNat m) = toString m := rfl
    rw [htext, integer?_of_isDigit fun _ => Text.isDigit_of_mem_toString, decimalDigits?_toString,
      Option.map_some, Text.ofDigits_toString]
    rfl
  | negSucc m =>
    have htext : (toString (Int.negSucc m)).toList = '-' :: (toString (m + 1)).toList := by
      have happend : toString (Int.negSucc m) = "-" ++ toString (m + 1) := rfl
      rw [happend, String.toList_append]
      rfl
    rw [htext, integer?, cutSign]
    · simp only [decimalDigits?_toString, Option.map_some, Text.ofDigits_toString, signed,
        if_true]
      rfl
    all_goals exact nofun

/-- Whether a character stands inside values without quotes and brackets. -/
def isBare (c : Char) : Bool := !isGapBlank c && !isDelimiter c && c ≠ '"' && c ≠ '\''

theorem bareText_append {text rest : List Char} (h : ∀ c ∈ text, isBare c) (hrest : Ends rest) :
    bareText (text ++ rest) = (text, rest) := by
  induction text with
  | nil =>
    cases rest with
    | nil => rfl
    | cons c rest =>
      have hends : ∀ c, isEnd c → isGapBlank c = false ∧ isDelimiter c := by
        intro c hc
        simp only [isEnd, List.contains_cons, List.contains_nil, Bool.or_false, Bool.or_eq_true,
          beq_iff_eq] at hc
        obtain rfl | rfl | rfl | rfl := hc <;> decide
      obtain ⟨hblank, hdelimiter⟩ := hends c (hrest c rfl)
      rw [List.nil_append, bareText, hblank, hdelimiter]
      rfl
  | cons c text ih =>
    have hc := h c List.mem_cons_self
    simp only [isBare, Bool.and_eq_true, Bool.not_eq_true'] at hc
    rw [List.cons_append, bareText, hc.1.1.1, hc.1.1.2,
      ih fun d hd => h d (List.mem_cons_of_mem c hd)]
    rfl

theorem value_of_isBare (depth : Nat) {c : Char} {text rest : List Char}
    (h : ∀ d ∈ c :: text, isBare d) (hrest : Ends rest) :
    value depth (c :: text ++ rest) = (scalar? (c :: text)).map fun v => (v, rest) := by
  have hc := h c List.mem_cons_self
  have hscalar : scalar (c :: text ++ rest) = (scalar? (c :: text)).map fun v => (v, rest) := by
    rw [scalar, bareText_append h hrest]
  rw [← hscalar]
  unfold value
  split
  · rename_i heq
    cases heq
    cases hc
  · rename_i heq
    cases heq
    cases hc
  · rename_i heq
    cases heq
    cases hc
  · rename_i heq
    cases heq
    cases hc
  · rfl

theorem isBare_of_mem_toString {n : Int} {c : Char} (h : c ∈ (toString n).toList) : isBare c := by
  have hdigit : ∀ d : Char, d.isDigit → isBare d := by
    intro d hd
    obtain ⟨k, hk, rfl⟩ := Text.exists_of_isDigit hd
    have hall : ∀ k < 10, isBare (Char.ofNat (48 + k)) := by decide
    exact hall k hk
  cases n with
  | ofNat m => exact hdigit c (Text.isDigit_of_mem_toString h)
  | negSucc m =>
    have happend : toString (Int.negSucc m) = "-" ++ toString (m + 1) := rfl
    rw [happend, String.toList_append, List.mem_append] at h
    obtain h | h := h
    · obtain rfl : c = '-' := by simpa using h
      rfl
    · exact hdigit c (Text.isDigit_of_mem_toString h)

theorem toList_toString_ne_nil (n : Int) : (toString n).toList ≠ [] := by
  cases n with
  | ofNat m => exact Text.toList_toString_ne_nil m
  | negSucc m =>
    have happend : toString (Int.negSucc m) = "-" ++ toString (m + 1) := rfl
    rw [happend, String.toList_append]
    simp

theorem scalar?_toString (n : Int) : scalar? (toString n).toList = some (.integer n) := by
  have hword : ∀ {word : List Char}, integer? word = none → (toString n).toList ≠ word := by
    rintro word hword rfl
    rw [integer?_toString] at hword
    cases hword
  rw [scalar?, if_neg (hword rfl), if_neg (hword rfl), integer?_toString]

theorem value_writeString (depth : Nat) (s : String) {rest : List Char} (h : Ends rest) :
    value depth (writeString s ++ rest) = some (.string s, rest) := by
  have hstring := anyString_writeString s h
  rw [writeString, List.cons_append] at hstring ⊢
  rw [value, hstring]
  rfl

theorem value_toString (depth : Nat) (n : Int) {rest : List Char} (h : Ends rest) :
    value depth ((toString n).toList ++ rest) = some (.integer n, rest) := by
  have hbare : ∀ c ∈ (toString n).toList, isBare c := fun c => isBare_of_mem_toString
  have hscalar := scalar?_toString n
  obtain ⟨c, cs, hcons⟩ := List.exists_cons_of_ne_nil (toList_toString_ne_nil n)
  rw [hcons] at hbare hscalar ⊢
  rw [value_of_isBare depth hbare h, hscalar]
  rfl

theorem value_boolean (depth : Nat) (b : Bool) {rest : List Char} (h : Ends rest) :
    value depth ((if b then "true" else "false").toList ++ rest) = some (.boolean b, rest) := by
  cases b with
  | false => exact value_of_isBare depth (List.all_eq_true.mp rfl) h
  | true => exact value_of_isBare depth (List.all_eq_true.mp rfl) h

end BoundSql.Toml
