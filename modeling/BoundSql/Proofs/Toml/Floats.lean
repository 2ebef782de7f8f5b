import BoundSql.Proofs.Decimal.Shortest
import BoundSql.Proofs.Text.Runs
import BoundSql.Proofs.Toml.Scalars
import BoundSql.Settings.Decode

/-!
The text in which a floating-point value is reported is a floating-point value of a document
itself, with the same sign and the same binary number.
-/

namespace BoundSql.Toml

/-- Digits before and after a point that write `x`, without a leading zero before another digit. -/
structure Positional (whole fraction : List Char) (x : ℚ) : Prop where
  whole_ne_nil : whole ≠ []
  fraction_ne_nil : fraction ≠ []
  digits : ∀ c ∈ whole ++ fraction, c.isDigit
  leading : whole.head? = some '0' → whole.length = 1
  value : (Text.ofDigits 10 (whole ++ fraction) : ℚ) * 10 ^ (-(fraction.length : Int)) = x

theorem isDigit_of_mem_zeros {k : Nat} : ∀ d ∈ List.replicate k '0', d.isDigit := fun d hd => by
  rw [List.eq_of_mem_replicate hd]
  rfl

theorem isDigit_of_mem_digits {c : Nat} : ∀ d ∈ Nat.toDigits 10 c, d.isDigit := fun _ hd =>
  Nat.isDigit_of_mem_toDigits (by decide) (by decide) hd

theorem eq_zero_of_head?_digits {c : Nat} (h : (Nat.toDigits 10 c).head? = some '0') : c = 0 := by
  by_contra hne
  exact Text.head?_toDigits (Nat.pos_of_ne_zero hne) h

/-- A number with zeros behind it stands before the point. -/
theorem Positional.whole {c k : Nat} (h : 0 < c ∨ k = 0) :
    Positional (Nat.toDigits 10 c ++ List.replicate k '0') ['0'] (c * 10 ^ (k : Int)) where
  whole_ne_nil := by simp [Nat.toDigits_ne_nil]
  fraction_ne_nil := List.cons_ne_nil _ _
  digits := by
    simp only [List.mem_append, List.mem_singleton]
    rintro d ((hd | hd) | rfl)
    · exact isDigit_of_mem_digits d hd
    · exact isDigit_of_mem_zeros d hd
    · rfl
  leading := by
    rw [List.head?_append_of_ne_nil _ Nat.toDigits_ne_nil]
    intro heq
    obtain rfl := eq_zero_of_head?_digits heq
    obtain rfl : k = 0 := by omega
    rfl
  value := by
    have hzeros : Nat.toDigits 10 c ++ List.replicate k '0' ++ ['0'] =
        Nat.toDigits 10 c ++ List.replicate (k + 1) '0' := by
      rw [List.replicate_succ', List.append_assoc]
    rw [hzeros, Text.ofDigits_append_zeros, Text.ofDigits_toDigits, List.length_singleton]
    push_cast
    rw [pow_succ, zpow_neg, zpow_one, zpow_natCast]
    field_simp

/-- Of a number with zeros in front of it the last `places` digits stand behind the point.  The
zeros are as many as leave one digit before the point, or none. -/
theorem Positional.padded {c places : Nat} (h : 0 < places) {padded : List Char}
    (hpadded : padded = List.replicate (places + 1 - (Nat.toDigits 10 c).length) '0' ++
      Nat.toDigits 10 c) :
    Positional (padded.take (padded.length - places)) (padded.drop (padded.length - places))
      (c * 10 ^ (-(places : Int))) := by
  have hpos : 0 < (Nat.toDigits 10 c).length := Nat.length_toDigits_pos
  have hlength : padded.length =
      places + 1 - (Nat.toDigits 10 c).length + (Nat.toDigits 10 c).length := by
    rw [hpadded, List.length_append, List.length_replicate]
  constructor
  case whole_ne_nil =>
    rw [← List.length_pos_iff, List.length_take]
    omega
  case fraction_ne_nil =>
    rw [← List.length_pos_iff, List.length_drop]
    omega
  case digits =>
    rw [List.take_append_drop, hpadded]
    simp only [List.mem_append]
    rintro d (hd | hd)
    · exact isDigit_of_mem_zeros d hd
    · exact isDigit_of_mem_digits d hd
  case leading =>
    rw [List.head?_take, if_neg (by omega), List.length_take]
    intro heq
    by_cases hpad : places + 1 - (Nat.toDigits 10 c).length = 0
    · -- Without zeros in front a leading zero would be the only digit, and too short to be cut.
      rw [hpadded, hpad, List.replicate_zero, List.nil_append] at heq
      have hone : (Nat.toDigits 10 c).length = 1 := by
        rw [eq_zero_of_head?_digits heq]
        rfl
      omega
    · omega
  case value =>
    have hplaces : padded.length - (padded.length - places) = places := by omega
    rw [List.take_append_drop, List.length_drop, hplaces, hpadded, Text.ofDigits_zeros_append,
      Text.ofDigits_toDigits]

theorem exists_positional {c : Nat} {p : Int} (h : 0 < c ∨ p ≤ 0) : ∃ whole fraction,
    (positional c p).toList = whole ++ '.' :: fraction ∧
      Positional whole fraction (c * 10 ^ p) := by
  unfold positional
  extract_lets digits places padded whole
  split
  next hp =>
    obtain ⟨k, rfl⟩ := Int.eq_ofNat_of_zero_le hp
    exact ⟨_, ['0'], by simp [digits], Positional.whole (by omega)⟩
  next hp =>
    have hplaces : p = -(places : Int) := by omega
    exact ⟨_, _, String.toList_ofList, hplaces ▸ Positional.padded (by omega) rfl⟩

/-- Digits on both sides of a point are read as the number that they write. -/
theorem Positional.decimal?_eq {whole fraction : List Char} {x : ℚ}
    (h : Positional whole fraction x) (negative : Bool) :
    ∃ d, decimal? negative (whole ++ '.' :: fraction) = some d ∧ d.negative = negative ∧
      d.magnitude = x := by
  have hspan {cs : List Char} (hcs : ∀ c ∈ cs, c.isDigit) : ∀ c ∈ cs, c.isDigit || c = '_' :=
    fun c hc => by rw [hcs c hc]; rfl
  have hwhole : ∀ c ∈ whole, c.isDigit := fun c hc => h.digits c (List.mem_append_left _ hc)
  have hfraction : ∀ c ∈ fraction, c.isDigit := fun c hc => h.digits c (List.mem_append_right _ hc)
  refine ⟨⟨negative, Text.ofDigits 10 (whole ++ fraction), 0 - (fraction.length : Int)⟩, ?_, rfl,
    ?_⟩
  · have hfraction? : fraction? ('.' :: fraction) = some (fraction, []) := by
      have hend : ∀ c ∈ ([] : List Char).head?, (c.isDigit || c = '_') = false := nofun
      have hcut := Text.span_append (hspan hfraction) hend
      rw [List.append_nil] at hcut
      rw [fraction?, hcut]
      simp only [digits?_of_isDigit h.fraction_ne_nil hfraction, Option.map_some]
    rw [decimal?, Text.span_append (hspan hwhole) (by simp)]
    simp only [decimalDigits?_of_isDigit h.whole_ne_nil hwhole h.leading, hfraction?, exponent?]
    rfl
  · rw [Decimal.magnitude, zero_sub, h.value]

/-- What starts with a digit behind the sign is no name. -/
theorem float?_of_cutSign {c : Char} (h : c.isDigit) {text cs : List Char} {negative : Bool}
    (hsign : cutSign text = (negative, c :: cs)) :
    float? text = (decimal? negative (c :: cs)).map .finite := by
  rw [float?, hsign]
  split
  next heq =>
    cases heq
    cases h
  next heq =>
    cases heq
    cases h
  next heq =>
    cases heq
    rfl

/-- A text that starts with a digit has no sign. -/
theorem float?_of_isDigit {c : Char} (h : c.isDigit) (cs : List Char) :
    float? (c :: cs) = (decimal? false (c :: cs)).map .finite ∧
      float? ('-' :: c :: cs) = (decimal? true (c :: cs)).map .finite := by
  have hsign : cutSign (c :: cs) = (false, c :: cs) := by
    unfold cutSign
    split
    next heq =>
      cases heq
      cases h
    next heq =>
      cases heq
      cases h
    next => rfl
  exact ⟨float?_of_cutSign h hsign, float?_of_cutSign h rfl⟩

/-- The text of a binary number is a floating-point value of that number. -/
theorem float?_text {b : Binary64} (hb : b.Canonical) (hmax : b.exponent ≤ Binary64.maxExponent)
    (negative : Bool) : ∃ d, float? (b.text negative).toList = some (.finite d) ∧
      d.negative = negative ∧ d.nearest? = some b := by
  have hshortest := Binary64.nearest?_shortest hb hmax negative
  have hpos : 0 < b.shortest.1 ∨ b.shortest.2 ≤ 0 := by
    rcases b.significand.eq_zero_or_pos with h | h
    · right
      rw [Binary64.shortest, if_pos h]
    · exact .inl (Binary64.isShortest_shortest hb hmax h).pos
  obtain ⟨whole, fraction, htext, hpositional⟩ := exists_positional hpos
  obtain ⟨d, hread, hsign, hvalue⟩ := hpositional.decimal?_eq negative
  obtain ⟨c, cs, rfl⟩ := List.exists_cons_of_ne_nil hpositional.whole_ne_nil
  have hdigit := hpositional.digits c (by simp)
  refine ⟨d, ?_, hsign, ?_⟩
  · cases negative with
    | false =>
      have : (b.text false).toList = c :: cs ++ '.' :: fraction := by
        rw [← htext, Binary64.text, String.toList_append]
        rfl
      rw [this, List.cons_append, (float?_of_isDigit hdigit _).1, ← List.cons_append, hread]
      rfl
    | true =>
      have : (b.text true).toList = '-' :: (c :: cs ++ '.' :: fraction) := by
        rw [← htext, Binary64.text, String.toList_append]
        rfl
      rw [this, List.cons_append, (float?_of_isDigit hdigit _).2, ← List.cons_append, hread]
      rfl
  · rw [Decimal.nearest?_eq_some_iff] at hshortest ⊢
    rw [hvalue]
    exact hshortest

/-- The text in which a fault reports a decimal number writes a number with the same sign that is
nearest to the same binary number. -/
theorem float?_floatText? {d : Decimal} {text : String}
    (h : DocumentFault.floatText? (.finite d) = some text) :
    ∃ d', float? text.toList = some (.finite d') ∧ d'.negative = d.negative ∧
      d'.nearest? = d.nearest? := by
  obtain ⟨b, hb, rfl⟩ := Option.map_eq_some_iff.mp h
  obtain ⟨hcanonical, hmax, -⟩ := Decimal.nearest?_eq_some_iff.mp hb
  rw [hb]
  exact float?_text hcanonical hmax d.negative

example : DocumentFault.floatText? (.finite ⟨true, 2500, -3⟩) = some "-2.5" ∧
    float? "-2.5".toList = some (.finite ⟨true, 25, -1⟩) := by
  decide +kernel

end BoundSql.Toml
