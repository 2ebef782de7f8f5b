import BoundSql.Text.Numeral
import Mathlib.Data.List.Basic
import Mathlib.Data.List.Induction
import Mathlib.Data.Nat.Digits.Defs

/-! Decimal numerals.  A text is read as a number exactly when it consists of digits that write the
number in base ten (`digitsOnly?_eq_some_iff`), and every number reads back from the text that it is
written as (`digitsOnly?_toString`). -/

namespace BoundSql

namespace Text

/-- The number that ASCII digits write in base ten, the last digit counting least. -/
def Digits (cs : List Char) (n : Nat) : Prop :=
  cs ≠ [] ∧ (∀ c ∈ cs, c.isDigit) ∧
    n = Nat.ofDigits 10 (cs.reverse.map fun c => c.toNat - '0'.toNat)

/-- Digits, with or without a plus sign before them. -/
def Numeral (cs : List Char) (n : Nat) : Prop :=
  ∃ digits, (cs = digits ∨ cs = '+' :: digits) ∧ Digits digits n

theorem ofDigits_eq {cs : List Char} (h : ∀ c ∈ cs, c.isDigit) :
    ofDigits 10 cs = Nat.ofDigits 10 (cs.reverse.map fun c => c.toNat - '0'.toNat) := by
  induction cs using List.reverseRecOn with
  | nil => rfl
  | append_singleton cs c ih =>
    have hc : digitValue c = c.toNat - '0'.toNat := if_pos (h c (by simp))
    have hcs := ih fun d hd => h d (List.mem_append_left _ hd)
    rw [List.reverse_append, List.reverse_singleton, List.singleton_append, List.map_cons,
      Nat.ofDigits_cons, ← hcs, ofDigits, ofDigits, List.foldl_append, List.foldl_cons,
      List.foldl_nil, hc, Nat.add_comm, Nat.mul_comm]

theorem digitsOnly?_eq_some_iff {cs : List Char} {n : Nat} :
    digitsOnly? cs = some n ↔ Digits cs n := by
  have hcond : (cs.isEmpty || !cs.all Char.isDigit) = false ↔
      cs ≠ [] ∧ ∀ c ∈ cs, c.isDigit := by
    simp
  cases h : cs.isEmpty || !cs.all Char.isDigit with
  | true =>
    rw [digitsOnly?, h, if_pos rfl]
    constructor
    · nofun
    · rintro ⟨hne, hdigits, _⟩
      rw [hcond.mpr ⟨hne, hdigits⟩] at h
      cases h
  | false =>
    obtain ⟨hne, hdigits⟩ := hcond.mp h
    rw [digitsOnly?, h, if_neg Bool.false_ne_true, ofDigits_eq hdigits, Option.some.injEq]
    constructor
    · rintro rfl
      exact ⟨hne, hdigits, rfl⟩
    · rintro ⟨_, _, hn⟩
      exact hn.symm

theorem upTo_eq_some_iff {high m n : Nat} : upTo high m = some n ↔ m = n ∧ n ≤ high := by
  unfold upTo
  split
  · rename_i h
    constructor
    · intro hmn
      cases hmn
      exact ⟨rfl, h⟩
    · rintro ⟨rfl, _⟩
      rfl
  · rename_i h
    constructor
    · nofun
    · rintro ⟨rfl, hle⟩
      exact absurd hle h

theorem bind_upTo_iff {high n : Nat} {cs : List Char} :
    (digitsOnly? cs).bind (upTo high) = some n ↔ Digits cs n ∧ n ≤ high := by
  rw [Option.bind_eq_some_iff]
  constructor
  · rintro ⟨m, hm, hn⟩
    obtain ⟨rfl, hle⟩ := upTo_eq_some_iff.mp hn
    exact ⟨digitsOnly?_eq_some_iff.mp hm, hle⟩
  · rintro ⟨hn, hle⟩
    exact ⟨n, digitsOnly?_eq_some_iff.mpr hn, upTo_eq_some_iff.mpr ⟨rfl, hle⟩⟩

theorem unsigned?_eq_some_iff {high n : Nat} {cs : List Char} :
    unsigned? high cs = some n ↔ Numeral cs n ∧ n ≤ high := by
  unfold unsigned?
  split
  · rename_i digits
    rw [bind_upTo_iff]
    constructor
    · rintro ⟨hdigits, hle⟩
      exact ⟨⟨digits, .inr rfl, hdigits⟩, hle⟩
    · rintro ⟨⟨digits', rfl | heq, hdigits⟩, hle⟩
      · -- A plus sign is no digit.
        exact absurd (hdigits.2.1 '+' List.mem_cons_self) (by decide)
      · cases heq
        exact ⟨hdigits, hle⟩
  · rename_i hplus
    rw [bind_upTo_iff]
    constructor
    · rintro ⟨hdigits, hle⟩
      exact ⟨⟨cs, .inl rfl, hdigits⟩, hle⟩
    · rintro ⟨⟨digits, rfl | rfl, hdigits⟩, hle⟩
      · exact ⟨hdigits, hle⟩
      · exact absurd rfl (hplus digits)

theorem exists_of_isDigit {c : Char} (h : c.isDigit) : ∃ n < 10, Char.ofNat (48 + n) = c := by
  simp only [Char.isDigit, Bool.and_eq_true, decide_eq_true_eq, ge_iff_le,
    UInt32.le_iff_toNat_le] at h
  obtain ⟨hlow, hhigh⟩ := h
  have hzero : '0'.val.toNat = 48 := rfl
  have hnine : '9'.val.toNat = 57 := rfl
  have hc : c.val.toNat = c.toNat := rfl
  refine ⟨c.toNat - 48, by omega, ?_⟩
  rw [show 48 + (c.toNat - 48) = c.toNat by omega, Char.ofNat_toNat]

theorem isDigit_of_mem_toString {n : Nat} {c : Char} (h : c ∈ (toString n).toList) :
    c.isDigit := by
  have hc : c ∈ Nat.toDigits 10 n := by simpa using h
  exact Nat.isDigit_of_mem_toDigits (by decide) (by decide) hc

theorem head?_toDigits {n : Nat} (h : 0 < n) : (Nat.toDigits 10 n).head? ≠ some '0' := by
  induction n using Nat.strongRecOn with
  | ind n ih =>
    by_cases hn : n < 10
    · have hall : ∀ m < 10, 0 < m → [m.digitChar].head? ≠ some '0' := by decide
      rw [Nat.toDigits_of_lt_base hn]
      exact hall n hn h
    · have hquotient : 0 < n / 10 := by omega
      have hhead := ih (n / 10) (by omega) hquotient
      rw [Nat.toDigits_of_base_le (by decide) (by omega)]
      rwa [List.head?_append_of_ne_nil _ Nat.toDigits_ne_nil]

theorem toList_toString_ne_nil (n : Nat) : (toString n).toList ≠ [] := by
  rw [Nat.toString_eq_repr, Nat.toList_repr]
  exact Nat.toDigits_ne_nil

theorem ofDigits_eq_ofDigitChars {cs : List Char} (h : ∀ c ∈ cs, c.isDigit) :
    ofDigits 10 cs = Nat.ofDigitChars 10 cs 0 := by
  rw [ofDigits, Nat.ofDigitChars_eq_foldl]
  refine List.foldl_ext _ _ _ fun n c hc => ?_
  rw [digitValue, if_pos (h c hc), Nat.mul_comm]
  rfl

theorem ofDigits_toDigits (n : Nat) : ofDigits 10 (Nat.toDigits 10 n) = n := by
  rw [ofDigits_eq_ofDigitChars fun c hc =>
    Nat.isDigit_of_mem_toDigits (by decide) (by decide) hc, Nat.ofDigitChars_ten_toDigits]

theorem ofDigits_toString (n : Nat) : ofDigits 10 (toString n).toList = n := by
  rw [Nat.toString_eq_repr, Nat.toList_repr, ofDigits_toDigits]

theorem ofDigits_append_zeros (cs : List Char) (k : Nat) :
    ofDigits 10 (cs ++ List.replicate k '0') = ofDigits 10 cs * 10 ^ k := by
  induction k generalizing cs with
  | zero => simp
  | succ k ih =>
    have hzero : ofDigits 10 (cs ++ ['0']) = ofDigits 10 cs * 10 := by
      rw [ofDigits, List.foldl_append]
      rfl
    rw [List.replicate_succ, ← List.singleton_append, ← List.append_assoc, ih, hzero,
      Nat.pow_succ', Nat.mul_assoc]

theorem ofDigits_zeros_append (k : Nat) (cs : List Char) :
    ofDigits 10 (List.replicate k '0' ++ cs) = ofDigits 10 cs := by
  induction k with
  | zero => rfl
  | succ k ih => exact ih

/-- A number reads back from its digits. -/
theorem digitsOnly?_toString (n : Nat) : digitsOnly? (toString n).toList = some n := by
  have hdigits : ∀ c ∈ (toString n).toList, c.isDigit := fun c => isDigit_of_mem_toString
  have hcond : ((toString n).toList.isEmpty || !(toString n).toList.all Char.isDigit) = false := by
    simpa [toList_toString_ne_nil] using hdigits
  rw [digitsOnly?, hcond, if_neg Bool.false_ne_true, ofDigits_toString]

/-- Digits without a leading zero are those of the number that they write. -/
theorem toDigits_ofDigits {cs : List Char} (hne : cs ≠ []) (hdigits : ∀ c ∈ cs, c.isDigit)
    (hzero : cs.head? = some '0' → cs.length = 1) : Nat.toDigits 10 (ofDigits 10 cs) = cs := by
  induction cs using List.reverseRecOn with
  | nil => exact absurd rfl hne
  | append_singleton cs c ih =>
    obtain ⟨d, hd, rfl⟩ := exists_of_isDigit (hdigits c (by simp))
    have hdigit : ∀ d < 10, digitValue (Char.ofNat (48 + d)) = d ∧
        d.digitChar = Char.ofNat (48 + d) := by decide
    obtain ⟨hvalue, hchar⟩ := hdigit d hd
    have hsum : ofDigits 10 (cs ++ [Char.ofNat (48 + d)]) = ofDigits 10 cs * 10 + d := by
      rw [ofDigits, List.foldl_append, List.foldl_cons, List.foldl_nil, hvalue]
      rfl
    rw [hsum]
    obtain rfl | hcs := eq_or_ne cs []
    · rw [ofDigits, List.foldl_nil, Nat.zero_mul, Nat.zero_add, Nat.toDigits_of_lt_base hd, hchar]
      rfl
    · obtain ⟨e, es, rfl⟩ := List.exists_cons_of_ne_nil hcs
      -- The digits before the last one do not start with a zero either.
      have hhead : e ≠ '0' := by
        rintro rfl
        have hlength := hzero rfl
        simp at hlength
      have hfront := ih hcs (fun c hc => hdigits c (List.mem_append_left _ hc))
        fun heq => absurd (Option.some.inj heq) hhead
      have hpos : 0 < ofDigits 10 (e :: es) := by
        refine Nat.pos_of_ne_zero fun hvalue => hhead ?_
        rw [hvalue] at hfront
        exact (List.cons.inj hfront).1.symm
      rw [Nat.toDigits_of_base_le (by decide) (by omega), show
        (ofDigits 10 (e :: es) * 10 + d) / 10 = ofDigits 10 (e :: es) by omega, show
        (ofDigits 10 (e :: es) * 10 + d) % 10 = d by omega, hfront, hchar]

theorem unsigned?_toString (high n : Nat) :
    unsigned? high (toString n).toList = upTo high n := by
  unfold unsigned?
  split
  · rename_i hplus
    have hdigit := isDigit_of_mem_toString (hplus ▸ List.mem_cons_self)
    cases hdigit
  · rw [digitsOnly?_toString, Option.bind_some]

end Text

end BoundSql
