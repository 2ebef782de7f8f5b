import BoundSql.Text.Blank
import Mathlib.Data.List.DropRight
import Mathlib.Data.List.TakeDrop

/-! Blanks between and around words, said without the functions that cut and trim.  `words` gives the
one list of runs of a text (`words_eq_iff`), and `trimChars` the one part of it that is left without
the blanks at its ends (`trimChars_eq_iff`). -/

namespace BoundSql.Text

/-- A text without anything but blanks. -/
def Blank (cs : List Char) : Prop := ∀ c ∈ cs, isBlank c

/-- The maximal runs of characters that are not blank, in order.  What follows a run is nothing or
starts with a blank. -/
inductive Runs : List Char → List (List Char) → Prop
  | none {gap : List Char} (hgap : Blank gap) : Runs gap []
  | next {gap run rest : List Char} {runs : List (List Char)} (hgap : Blank gap) (hne : run ≠ [])
    (hrun : ∀ c ∈ run, ¬ isBlank c) (hend : ∀ c ∈ rest.head?, isBlank c) (hrest : Runs rest runs) :
    Runs (gap ++ run ++ rest) (run :: runs)

/-- What is left of a text without the blanks at its ends. -/
structure Trimmed (cs core : List Char) : Prop where
  split : ∃ front back, cs = front ++ core ++ back ∧ Blank front ∧ Blank back
  first : ∀ c ∈ core.head?, ¬ isBlank c
  last : ∀ c ∈ core.getLast?, ¬ isBlank c

/-- A text is cut behind the front of it whose characters satisfy `p`. -/
theorem span_append {p : Char → Bool} {front rest : List Char} (hfront : ∀ c ∈ front, p c)
    (hrest : ∀ c ∈ rest.head?, p c = false) : (front ++ rest).span p = (front, rest) := by
  rw [List.span_eq_takeWhile_dropWhile, List.takeWhile_append_of_pos hfront,
    List.dropWhile_append_of_pos hfront]
  cases rest with
  | nil => simp
  | cons c rest => simp [hrest c rfl]

theorem Blank.tail {c : Char} {cs : List Char} (h : Blank (c :: cs)) : Blank cs :=
  fun d hd => h d (List.mem_cons_of_mem c hd)

/-! ### Runs -/

theorem closeRun_of_ne_nil {run : List Char} (h : run ≠ []) (rest : List (List Char)) :
    closeRun run rest = run :: rest := by
  cases run with
  | nil => exact absurd rfl h
  | cons => rfl

theorem words_cons_of_blank {c : Char} (h : isBlank c) (cs : List Char) :
    words (c :: cs) = words cs := by
  simp [words, cutRuns, h, closeRun]

theorem words_append_of_blank {gap : List Char} (h : Blank gap) (cs : List Char) :
    words (gap ++ cs) = words cs := by
  induction gap with
  | nil => rfl
  | cons c gap ih =>
    have hc : isBlank c := h c List.mem_cons_self
    rw [List.cons_append, words_cons_of_blank hc, ih h.tail]

theorem cutRuns_of_end {rest : List Char} (h : ∀ c ∈ rest.head?, isBlank c) :
    cutRuns rest = ([], words rest) := by
  cases rest with
  | nil => rfl
  | cons c rest =>
    have hc : isBlank c := h c rfl
    simp [words, cutRuns, hc, closeRun]

theorem cutRuns_run {run rest : List Char} (hrun : ∀ c ∈ run, ¬ isBlank c)
    (hend : ∀ c ∈ rest.head?, isBlank c) : cutRuns (run ++ rest) = (run, words rest) := by
  induction run with
  | nil => exact cutRuns_of_end hend
  | cons c run ih =>
    have hc : ¬ isBlank c := hrun c List.mem_cons_self
    have hrest := ih fun d hd => hrun d (List.mem_cons_of_mem c hd)
    rw [List.cons_append, cutRuns, hrest]
    simp [hc]

theorem words_run {run rest : List Char} (hne : run ≠ []) (hrun : ∀ c ∈ run, ¬ isBlank c)
    (hend : ∀ c ∈ rest.head?, isBlank c) : words (run ++ rest) = run :: words rest := by
  rw [words, cutRuns_run hrun hend, closeRun_of_ne_nil hne]

theorem Runs.words_eq {cs : List Char} {runs : List (List Char)} (h : Runs cs runs) :
    words cs = runs := by
  induction h with
  | none hgap =>
    have hwords := words_append_of_blank hgap []
    rwa [List.append_nil] at hwords
  | next hgap hne hrun hend _ ih =>
    rw [List.append_assoc, words_append_of_blank hgap, words_run hne hrun hend, ih]

/-- One more character in front.  It joins the first run if both are not blank. -/
theorem exists_runs_cons {c : Char} {cs : List Char} {runs : List (List Char)} (h : Runs cs runs) :
    ∃ runs', Runs (c :: cs) runs' := by
  by_cases hc : isBlank c
  · cases h with
    | none hgap => exact ⟨[], .none (List.forall_mem_cons.mpr ⟨hc, hgap⟩)⟩
    | @next gap run rest runs hgap hne hrun hend hrest =>
      have hlonger : Blank (c :: gap) := List.forall_mem_cons.mpr ⟨hc, hgap⟩
      exact ⟨_, .next hlonger hne hrun hend hrest⟩
  · have hnil : Blank [] := fun d hd => absurd hd List.not_mem_nil
    have hsingle : ∀ d ∈ [c], ¬ isBlank d := by simpa using hc
    cases h with
    | none hgap =>
      have hhead : ∀ d ∈ cs.head?, isBlank d := fun d hd => hgap d (List.mem_of_head? hd)
      exact ⟨_, .next hnil (by simp) hsingle hhead (.none hgap)⟩
    | @next gap run rest runs hgap hne hrun hend hrest =>
      rcases gap with _ | ⟨d, gap⟩
      · have hlonger : ∀ d ∈ c :: run, ¬ isBlank d := List.forall_mem_cons.mpr ⟨hc, hrun⟩
        exact ⟨_, .next hnil (by simp) hlonger hend hrest⟩
      · have hd : ∀ e ∈ (d :: gap ++ run ++ rest).head?, isBlank e := by
          intro e he
          cases he
          exact hgap d List.mem_cons_self
        exact ⟨_, .next hnil (by simp) hsingle hd (.next hgap hne hrun hend hrest)⟩

theorem exists_runs (cs : List Char) : ∃ runs, Runs cs runs := by
  induction cs with
  | nil => exact ⟨[], .none fun c hc => absurd hc List.not_mem_nil⟩
  | cons c cs ih =>
    obtain ⟨runs, h⟩ := ih
    exact exists_runs_cons h

theorem words_eq_iff {cs : List Char} {runs : List (List Char)} :
    words cs = runs ↔ Runs cs runs := by
  constructor
  · rintro rfl
    obtain ⟨runs, h⟩ := exists_runs cs
    rwa [h.words_eq]
  · exact Runs.words_eq

/-! ### Trimming -/

theorem trimChars_eq (cs : List Char) :
    trimChars cs = (cs.dropWhile isBlank).rdropWhile isBlank := rfl

theorem trimmed_trimChars (cs : List Char) : Trimmed cs (trimChars cs) where
  split := by
    refine ⟨cs.takeWhile isBlank, (cs.dropWhile isBlank).rtakeWhile isBlank, ?_, ?_, ?_⟩
    · rw [trimChars_eq, List.append_assoc, List.rdropWhile_append_rtakeWhile,
        List.takeWhile_append_dropWhile]
    · exact fun c hc => List.mem_takeWhile_imp hc
    · exact fun c hc => List.mem_rtakeWhile_imp hc
  first c hc := by
    obtain ⟨back, hback⟩ := List.rdropWhile_prefix isBlank (l := cs.dropWhile isBlank)
    rw [← trimChars_eq] at hback
    cases hcore : trimChars cs with
    | nil => simp [hcore] at hc
    | cons d core =>
      have hhead := List.head?_dropWhile_not isBlank cs
      rw [← hback, hcore] at hhead
      rw [hcore] at hc
      cases hc
      simpa using hhead
  last c hc := by
    obtain ⟨hne, rfl⟩ := List.mem_getLast?_eq_getLast hc
    exact List.rdropWhile_last_not isBlank _ hne

theorem dropBlanks_append {gap cs : List Char} (hgap : Blank gap)
    (hcs : ∀ c ∈ cs.head?, ¬ isBlank c) : dropBlanks (gap ++ cs) = cs := by
  rw [dropBlanks, List.dropWhile_append_of_pos hgap]
  cases cs with
  | nil => rfl
  | cons c cs => exact List.dropWhile_cons_of_neg (hcs c rfl)

theorem Trimmed.trimChars_eq {cs core : List Char} (h : Trimmed cs core) :
    trimChars cs = core := by
  obtain ⟨⟨front, back, rfl, hfront, hback⟩, hfirst, hlast⟩ := h
  have hreverse : Blank back.reverse := fun c hc => hback c (List.mem_reverse.mp hc)
  have hdrop : dropBlanks (core ++ back).reverse = core.reverse := by
    rw [List.reverse_append]
    exact dropBlanks_append hreverse (by rwa [List.head?_reverse])
  rcases core with _ | ⟨c, core⟩
  · -- Nothing is left after the front, so it is dropped with the back.
    have hgap : Blank (front ++ back) := fun c hc =>
      (List.mem_append.mp hc).elim (hfront c) (hback c)
    have hall : dropBlanks (front ++ back ++ []) = [] := dropBlanks_append hgap (by simp)
    rw [List.append_nil] at hall
    rw [trimChars, List.append_nil, hall]
    rfl
  · rw [trimChars, List.append_assoc, dropBlanks_append hfront (by simpa using hfirst), hdrop,
      List.reverse_reverse]

theorem trimChars_eq_iff {cs core : List Char} : trimChars cs = core ↔ Trimmed cs core := by
  constructor
  · rintro rfl
    exact trimmed_trimChars cs
  · exact Trimmed.trimChars_eq

theorem trimChars_eq_nil_iff {cs : List Char} : trimChars cs = [] ↔ Blank cs := by
  rw [trimChars_eq_iff]
  constructor
  · rintro ⟨⟨front, back, rfl, hfront, hback⟩, _, _⟩ c hc
    rw [List.append_nil] at hc
    exact (List.mem_append.mp hc).elim (hfront c) (hback c)
  · intro h
    exact ⟨⟨cs, [], by simp, h, by simp [Blank]⟩, by simp, by simp⟩

end BoundSql.Text
