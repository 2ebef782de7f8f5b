import BoundSql.Proofs.Text.Runs
import BoundSql.Text.Quoted

/-!
Texts in quotes.  What a message shows of a text names it: no two texts look the same in quotes, and
every character there shows by itself.
-/

namespace BoundSql.Text

/-- The digits of base 16. -/
def hexChars : List Char := "0123456789abcdef".toList

theorem mem_hexChars {n : Nat} {c : Char} (h : c ∈ Nat.toDigits 16 n) : c ∈ hexChars := by
  have hdigit : ∀ d < 16, d.digitChar ∈ hexChars := by decide
  induction n using Nat.strongRecOn with
  | ind n ih =>
    rw [Nat.toDigits_eq_if (by decide)] at h
    split at h
    next hn =>
      rw [List.mem_singleton.mp h]
      exact hdigit n hn
    next hn =>
      rcases List.mem_append.mp h with h | h
      · exact ih (n / 16) (by omega) h
      · rw [List.mem_singleton.mp h]
        exact hdigit _ (Nat.mod_lt _ (by decide))

theorem toDigits_injective {m n : Nat} (h : Nat.toDigits 16 m = Nat.toDigits 16 n) : m = n := by
  have hdigit : ∀ d < 16, ∀ e < 16, d.digitChar = e.digitChar → d = e := by decide
  induction m using Nat.strongRecOn generalizing n with
  | ind m ih =>
    rw [Nat.toDigits_eq_if (by decide), Nat.toDigits_eq_if (n := n) (by decide)] at h
    split at h <;> split at h
    next hm hn => exact hdigit m hm n hn (List.singleton_injective h)
    next hm hn =>
      have := congrArg List.length h
      simp [Nat.toDigits_ne_nil] at this
    next hm hn =>
      have := congrArg List.length h
      simp [Nat.toDigits_ne_nil] at this
    next hm hn =>
      obtain ⟨hfront, hlast⟩ := List.append_inj' h rfl
      have hquotient := ih (m / 16) (by omega) hfront
      have hremainder := hdigit _ (Nat.mod_lt m (by decide)) _ (Nat.mod_lt n (by decide))
        (List.singleton_injective hlast)
      omega

/-- The characters that stand behind a backslash, with what they stand for. -/
def escapes : List (Char × Char) :=
  [('"', '"'), ('\\', '\\'), ('n', '\n'), ('r', '\r'), ('t', '\t'), ('0', '\x00')]

/-- The three forms of a character in quotes. -/
theorem quoteChar_cases (c : Char) :
    (c ≠ '"' ∧ c ≠ '\\' ∧ isHidden c = false ∧ (quoteChar c).toList = [c]) ∨
    (∃ e, (e, c) ∈ escapes ∧ (quoteChar c).toList = ['\\', e]) ∨
    (quoteChar c).toList = '\\' :: 'u' :: '\x7b' :: (Nat.toDigits 16 c.toNat ++ ['\x7d']) := by
  unfold quoteChar
  split
  next h => exact .inr (.inl ⟨'"', by rw [h]; decide, rfl⟩)
  split
  next h => exact .inr (.inl ⟨'\\', by rw [h]; decide, rfl⟩)
  split
  next h => exact .inr (.inl ⟨'n', by rw [h]; decide, rfl⟩)
  split
  next h => exact .inr (.inl ⟨'r', by rw [h]; decide, rfl⟩)
  split
  next h => exact .inr (.inl ⟨'t', by rw [h]; decide, rfl⟩)
  split
  next h => exact .inr (.inl ⟨'0', by rw [h]; decide, rfl⟩)
  split
  next => exact .inr (.inr (by simp [hex]))
  next hquote hslash _ _ _ _ hhidden =>
    exact .inl ⟨hquote, hslash, by simpa using hhidden, by simp⟩

/-- No character in quotes starts another. -/
theorem quoteChar_append_inj {c d : Char} {rest rest' : List Char}
    (h : (quoteChar c).toList ++ rest = (quoteChar d).toList ++ rest') : c = d ∧ rest = rest' := by
  have hletter : ∀ e ∈ escapes, e.1 ≠ 'u' := by decide
  have hmeaning : ∀ e ∈ escapes, ∀ f ∈ escapes, e.1 = f.1 → e.2 = f.2 := by decide
  -- The digits of a code point end at the brace.
  have hspan (n : Nat) (rest : List Char) :
      (Nat.toDigits 16 n ++ '\x7d' :: rest).span (· ∈ hexChars) =
        (Nat.toDigits 16 n, '\x7d' :: rest) :=
    span_append (fun _ hc => decide_eq_true (mem_hexChars hc)) fun e he => by
      obtain rfl := Option.some.inj he
      decide
  rcases quoteChar_cases c with ⟨_, hc, _, hc'⟩ | ⟨e, he, hc'⟩ | hc' <;>
    rcases quoteChar_cases d with ⟨_, hd, _, hd'⟩ | ⟨f, hf, hd'⟩ | hd' <;>
    rw [hc', hd'] at h <;> simp only [List.cons_append, List.nil_append, List.cons.injEq] at h
  · exact h
  · exact absurd h.1 hc
  · exact absurd h.1 hc
  · exact absurd h.1.symm hd
  · exact ⟨hmeaning _ he _ hf h.2.1, h.2.2⟩
  · exact absurd h.2.1 (hletter _ he)
  · exact absurd h.1.symm hd
  · exact absurd h.2.1.symm (hletter _ hf)
  · have hdigits := h.2.2.2
    rw [List.append_assoc, List.append_assoc] at hdigits
    have hcut := congrArg (List.span (· ∈ hexChars)) hdigits
    rw [List.singleton_append, List.singleton_append, hspan, hspan, Prod.mk.injEq] at hcut
    exact ⟨Char.toNat_inj.mp (toDigits_injective hcut.1), List.tail_eq_of_cons_eq hcut.2⟩

theorem toList_quoted (s : String) : (quoted s).toList =
    '"' :: (s.toList.flatMap (fun c => (quoteChar c).toList) ++ ['"']) := by
  rw [quoted, String.toList_append, String.toList_append, String.toList_join,
    List.flatMap_map]
  rfl

/-- A character in quotes does not end the text. -/
theorem quoteChar_append_ne (c : Char) (rest rest' : List Char) :
    (quoteChar c).toList ++ rest ≠ '"' :: rest' := by
  intro h
  rcases quoteChar_cases c with ⟨hc, _, _, hc'⟩ | ⟨e, _, hc'⟩ | hc' <;> rw [hc'] at h
  · exact hc (List.cons.inj h).1
  · cases h
  · cases h

/-- Different texts are different in quotes. -/
theorem quoted_injective : Function.Injective quoted := by
  intro s t h
  have hlist := congrArg String.toList h
  rw [toList_quoted, toList_quoted, List.cons.injEq] at hlist
  rw [← String.toList_inj]
  generalize s.toList = cs at hlist ⊢
  generalize t.toList = ds at hlist ⊢
  replace hlist := hlist.2
  induction cs generalizing ds with
  | nil =>
    cases ds with
    | nil => rfl
    | cons d ds =>
      rw [List.flatMap_cons, List.append_assoc] at hlist
      exact absurd hlist.symm (quoteChar_append_ne d _ _)
  | cons c cs ih =>
    rw [List.flatMap_cons, List.append_assoc] at hlist
    cases ds with
    | nil => exact absurd hlist (quoteChar_append_ne c _ _)
    | cons d ds =>
      rw [List.flatMap_cons, List.append_assoc] at hlist
      obtain ⟨rfl, hrest⟩ := quoteChar_append_inj hlist
      rw [ih ds hrest]

/-- The characters of ASCII from the blank to the tilde show by themselves. -/
theorem isHidden_of_ascii {c : Char} (hlow : 0x20 ≤ c.toNat) (hhigh : c.toNat ≤ 0x7E) :
    isHidden c = false := by
  have hranges : hiddenRanges.all (fun r => r.2 < 0x20 || 0x7E < r.1) = true := by decide +kernel
  simp only [List.all_eq_true, Bool.or_eq_true, decide_eq_true_eq] at hranges
  refine List.any_eq_false.mpr fun r hr => ?_
  have := hranges r hr
  simp only [Bool.and_eq_true, decide_eq_true_eq]
  omega

/-- Every character in quotes shows by itself. -/
theorem not_isHidden_of_mem_quoted {s : String} {c : Char} (h : c ∈ (quoted s).toList) :
    isHidden c = false := by
  have hmarks : ∀ d ∈ '"' :: '\\' :: 'u' :: '\x7b' :: '\x7d' :: hexChars, isHidden d = false := by
    have : ('"' :: '\\' :: 'u' :: '\x7b' :: '\x7d' :: hexChars).all
        (fun d => 0x20 ≤ d.toNat && d.toNat ≤ 0x7E) = true := by decide
    simp only [List.all_eq_true, Bool.and_eq_true, decide_eq_true_eq] at this
    exact fun d hd => isHidden_of_ascii (this d hd).1 (this d hd).2
  have hescapes : ∀ e ∈ escapes, isHidden e.1 = false := by
    have : escapes.all (fun e => 0x20 ≤ e.1.toNat && e.1.toNat ≤ 0x7E) = true := by decide
    simp only [List.all_eq_true, Bool.and_eq_true, decide_eq_true_eq] at this
    exact fun e he => isHidden_of_ascii (this e he).1 (this e he).2
  rw [toList_quoted, List.mem_cons, List.mem_append, List.mem_singleton] at h
  rcases h with rfl | h | rfl
  · exact hmarks _ (by simp)
  · obtain ⟨d, -, hd⟩ := List.mem_flatMap.mp h
    rcases quoteChar_cases d with ⟨_, _, hhidden, hd'⟩ | ⟨e, he, hd'⟩ | hd' <;> rw [hd'] at hd
    · rwa [List.mem_singleton.mp hd]
    · rcases List.mem_pair.mp hd with rfl | rfl
      · exact hmarks _ (by simp)
      · exact hescapes _ he
    · simp only [List.mem_cons, List.mem_append, List.mem_nil_iff, or_false] at hd
      refine hmarks c ?_
      rcases hd with rfl | rfl | rfl | hd | rfl
      · simp
      · simp
      · simp
      · simp [mem_hexChars hd]
      · simp
  · exact hmarks _ (by simp)

example : quoted "a\"\n\x7f" = "\"a\\\"\\n\\u\x7b7f\x7d\"" := by decide +kernel

end BoundSql.Text
