import BoundSql.Proofs.Text.Numerals
import BoundSql.Proofs.Text.Runs
import BoundSql.Settings.Basic

/-! Settings from the environment.  `Settings.Given` says which settings two variables give, and
`Settings.Withheld` why they give none: of several reasons, the first in the order of the
constructors (`Settings.ofEnvironment_exact`).  A size is a decimal numeral (`Text.Numeral`) of any
length with blanks around it, and its number has to fit 64 bits. -/

namespace BoundSql

namespace Settings

/-- A number as a text may give it for a size: a numeral with blanks around it. -/
def SizeText (text : String) (n : Nat) : Prop :=
  ∃ core, Text.Trimmed text.toList core ∧ Text.Numeral core n

/-- The settings that the two variables give. -/
structure Given (url size : Option String) (s : Settings) : Prop where
  url : url = some s.url
  visible : ¬ Text.Blank s.url.toList
  size : size = none ∧ s.maxSize = 16 ∨
    ∃ text, size = some text ∧ SizeText text s.maxSize ∧ 1 ≤ s.maxSize ∧ s.maxSize < 2 ^ 64
  recycling : s.recycling = .fast

/-- Why the two variables give no settings. -/
inductive Withheld : Option String → Option String → Error → Prop
  | unset (size : Option String) : Withheld none size (.config "DATABASE_URL is not set")
  | notSize (url : String) {text : String} (htext : ∀ n < 2 ^ 64, ¬ SizeText text n) :
    Withheld (some url) (some text)
      (.config ("QUERYDB_MAX_POOL_SIZE must be a positive integer, got '" ++ text ++ "'"))
  | blankUrl {url : String} {size : Option String}
    (hsize : ∀ text, size = some text → ∃ n < 2 ^ 64, SizeText text n)
    (hurl : Text.Blank url.toList) :
    Withheld (some url) size (.config "database.url must not be empty")
  | zeroSize {url text : String} (htext : SizeText text 0) (hurl : ¬ Text.Blank url.toList) :
    Withheld (some url) (some text) (.config "pool.max_size must be at least 1")

theorem sizeOfText?_eq_some_iff {text : String} {n : Nat} :
    sizeOfText? text = some n ↔ SizeText text n ∧ n < 2 ^ 64 := by
  have hmax : n ≤ Text.maxWord64 ↔ n < 2 ^ 64 := by
    rw [show Text.maxWord64 = 2 ^ 64 - 1 from rfl]
    omega
  rw [sizeOfText?, Text.unsigned?_eq_some_iff, hmax]
  constructor
  · rintro ⟨hnumeral, hlt⟩
    exact ⟨⟨_, Text.trimmed_trimChars _, hnumeral⟩, hlt⟩
  · rintro ⟨⟨core, hcore, hnumeral⟩, hlt⟩
    rw [hcore.trimChars_eq]
    exact ⟨hnumeral, hlt⟩

theorem sizeOfText?_eq_none_iff {text : String} :
    sizeOfText? text = none ↔ ∀ n < 2 ^ 64, ¬ SizeText text n := by
  rw [Option.eq_none_iff_forall_ne_some]
  constructor
  · intro h n hlt hn
    exact h n (sizeOfText?_eq_some_iff.mpr ⟨hn, hlt⟩)
  · intro h n hn
    obtain ⟨htext, hlt⟩ := sizeOfText?_eq_some_iff.mp hn
    exact h n hlt htext

theorem validate_of_blank {s : Settings} (h : Text.Blank s.url.toList) :
    s.validate = .error .blankUrl := by
  rw [validate, Text.trimChars_eq_nil_iff.mpr h]
  rfl

theorem validate_of_not_blank {s : Settings} (h : ¬ Text.Blank s.url.toList) :
    s.validate = if s.maxSize = 0 then .error .zeroSize else .ok s := by
  have hne : ¬ (Text.trimChars s.url.toList).isEmpty := by
    rwa [List.isEmpty_iff, Text.trimChars_eq_nil_iff]
  rw [validate, if_neg hne]

theorem ofEnvironment_of_size {url text : String} {n : Nat} (htext : SizeText text n)
    (hlt : n < 2 ^ 64) :
    ofEnvironment (some url) (some text) = validate { url, maxSize := n } := by
  have h : sizeOfText? text = some n := sizeOfText?_eq_some_iff.mpr ⟨htext, hlt⟩
  simp only [ofEnvironment, h]

theorem ofEnvironment_of_no_size {url text : String} (h : ∀ n < 2 ^ 64, ¬ SizeText text n) :
    ofEnvironment (some url) (some text) = .error (.notSize sizeVariable text) := by
  simp only [ofEnvironment, sizeOfText?_eq_none_iff.mpr h]

theorem Given.ofEnvironment_eq {url size : Option String} {s : Settings} (h : Given url size s) :
    ofEnvironment url size = .ok s := by
  obtain ⟨rfl, hvisible, hsize, hrecycling⟩ := h
  obtain ⟨url, maxSize, recycling⟩ := s
  cases hrecycling
  rcases hsize with ⟨rfl, rfl⟩ | ⟨text, rfl, htext, hpos, hlt⟩
  · exact validate_of_not_blank hvisible
  · have hne : maxSize ≠ 0 := Nat.one_le_iff_ne_zero.mp hpos
    rw [ofEnvironment_of_size htext hlt, validate_of_not_blank hvisible, if_neg hne]

theorem Withheld.ofEnvironment_eq {url size : Option String} {e : Error} (h : Withheld url size e) :
    (ofEnvironment url size).mapError SettingsFault.toError = .error e := by
  cases h with
  | unset => rfl
  | notSize url htext =>
    rw [ofEnvironment_of_no_size htext]
    rfl
  | @blankUrl url size hsize hurl =>
    have hblank : ofEnvironment (some url) size = .error .blankUrl := by
      rcases size with _ | text
      · exact validate_of_blank hurl
      · obtain ⟨n, hlt, htext⟩ := hsize text rfl
        exact (ofEnvironment_of_size htext hlt).trans (validate_of_blank hurl)
    rw [hblank]
    rfl
  | @zeroSize url text htext hurl =>
    rw [ofEnvironment_of_size htext (by decide), validate_of_not_blank hurl]
    rfl

/-- Every pair of variables gives settings or a reason why not. -/
theorem given_or_withheld (url size : Option String) :
    (∃ s, Given url size s) ∨ ∃ e, Withheld url size e := by
  rcases url with _ | url
  · exact .inr ⟨_, .unset size⟩
  rcases size with _ | text
  · by_cases hurl : Text.Blank url.toList
    · exact .inr ⟨_, .blankUrl nofun hurl⟩
    · exact .inl ⟨{ url }, rfl, hurl, .inl ⟨rfl, rfl⟩, rfl⟩
  cases hsize : sizeOfText? text with
  | none => exact .inr ⟨_, .notSize url (sizeOfText?_eq_none_iff.mp hsize)⟩
  | some n =>
    obtain ⟨htext, hlt⟩ := sizeOfText?_eq_some_iff.mp hsize
    by_cases hurl : Text.Blank url.toList
    · refine .inr ⟨_, .blankUrl (fun text' heq => ?_) hurl⟩
      cases heq
      exact ⟨n, hlt, htext⟩
    rcases Nat.eq_zero_or_pos n with rfl | hpos
    · exact .inr ⟨_, .zeroSize htext hurl⟩
    · exact .inl ⟨{ url, maxSize := n }, rfl, hurl, .inr ⟨text, rfl, htext, hpos, hlt⟩, rfl⟩

theorem exists_given_iff {url size : Option String} :
    (∃ s, Given url size s) ↔ (∃ u, url = some u ∧ ¬ Text.Blank u.toList) ∧
      ∀ text, size = some text → ∃ n, SizeText text n ∧ 1 ≤ n ∧ n < 2 ^ 64 := by
  constructor
  · rintro ⟨s, hurl, hvisible, hsize, _⟩
    refine ⟨⟨s.url, hurl, hvisible⟩, fun text htext => ?_⟩
    rcases hsize with ⟨hnone, _⟩ | ⟨text', hsome, hnumber⟩
    · rw [hnone] at htext
      cases htext
    · rw [hsome] at htext
      cases htext
      exact ⟨s.maxSize, hnumber⟩
  · rintro ⟨⟨u, rfl, hvisible⟩, hsize⟩
    rcases size with _ | text
    · exact ⟨{ url := u }, rfl, hvisible, .inl ⟨rfl, rfl⟩, rfl⟩
    · obtain ⟨n, hnumber⟩ := hsize text rfl
      exact ⟨{ url := u, maxSize := n }, rfl, hvisible, .inr ⟨text, rfl, hnumber⟩, rfl⟩

/-- The environment gives settings exactly when there is a URL with something to see in it and the
size, if there is one, is a number of 64 bits other than zero; the URL is kept as it stands.
Otherwise the caller sees the first reason why not. -/
theorem ofEnvironment_exact (url size : Option String) :
    let loaded := (ofEnvironment url size).mapError SettingsFault.toError
    ((∃ s, loaded = .ok s) ↔ (∃ u, url = some u ∧ ¬ Text.Blank u.toList) ∧
      ∀ text, size = some text → ∃ n, SizeText text n ∧ 1 ≤ n ∧ n < 2 ^ 64) ∧
    (∀ s, loaded = .ok s ↔ Given url size s) ∧
    ∀ e, loaded = .error e ↔ Withheld url size e := by
  intro loaded
  have hgiven : ∀ s, Given url size s → loaded = .ok s := by
    intro s hs
    rw [show loaded = (ofEnvironment url size).mapError SettingsFault.toError from rfl,
      hs.ofEnvironment_eq]
    rfl
  have hwithheld : ∀ e, Withheld url size e → loaded = .error e := fun e he => he.ofEnvironment_eq
  have hok : ∀ s, loaded = .ok s ↔ Given url size s := by
    refine fun s => ⟨fun h => ?_, hgiven s⟩
    rcases given_or_withheld url size with ⟨s', hs⟩ | ⟨e, he⟩
    · have heq := (hgiven s' hs).symm.trans h
      cases heq
      exact hs
    · have heq := (hwithheld e he).symm.trans h
      cases heq
  refine ⟨?_, hok, fun e => ⟨fun h => ?_, hwithheld e⟩⟩
  · rw [← exists_given_iff]
    exact exists_congr hok
  · rcases given_or_withheld url size with ⟨s, hs⟩ | ⟨e', he⟩
    · have heq := (hgiven s hs).symm.trans h
      cases heq
    · have heq := (hwithheld e' he).symm.trans h
      cases heq
      exact he

/-- A blank URL comes before a size of zero, and a size that does not fit 64 bits before both. -/
example :
    ofEnvironment (some "\u2003") (some "0") = .error .blankUrl ∧
      ofEnvironment (some "\u2003") (some "18446744073709551616") =
        .error (.notSize sizeVariable "18446744073709551616") ∧
      ofEnvironment (some " db ") (some "\u00a0+0018446744073709551615\n") =
        .ok ⟨" db ", 18446744073709551615, .fast⟩ := by
  decide +kernel

end Settings

end BoundSql
