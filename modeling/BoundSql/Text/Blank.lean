/-!
Blank characters, trimming and words.  A character is blank when it has the Unicode property
White_Space.  `words` cuts a text into its maximal runs of characters that are not blank, and
`trimChars` drops the blanks at both ends.
-/

namespace BoundSql.Text

/-- The code points with the property White_Space, as closed ranges. -/
def blankRanges : List (Nat × Nat) :=
  [(0x09, 0x0D), (0x20, 0x20), (0x85, 0x85), (0xA0, 0xA0), (0x1680, 0x1680), (0x2000, 0x200A),
    (0x2028, 0x2029), (0x202F, 0x202F), (0x205F, 0x205F), (0x3000, 0x3000)]

/-- Whether the code point of a character lies in one of the ranges. -/
def inRanges (ranges : List (Nat × Nat)) (c : Char) : Bool :=
  ranges.any fun (low, high) => decide (low ≤ c.toNat) && decide (c.toNat ≤ high)

def isBlank (c : Char) : Bool := inRanges blankRanges c

/-- The rest of a text after its leading blanks. -/
def dropBlanks (cs : List Char) : List Char := cs.dropWhile isBlank

/-- A text without the blanks at its two ends. -/
def trimChars (cs : List Char) : List Char :=
  (dropBlanks (dropBlanks cs).reverse).reverse

/-- Puts a run in front of the runs after it, unless the run is empty. -/
def closeRun (run : List Char) (rest : List (List Char)) : List (List Char) :=
  if run.isEmpty then rest else run :: rest

/-- The run of characters that are not blank at the start of a text, and the runs after it. -/
def cutRuns : List Char → List Char × List (List Char)
  | [] => ([], [])
  | c :: cs =>
    let (run, rest) := cutRuns cs
    if isBlank c then ([], closeRun run rest) else (c :: run, rest)

/-- The maximal runs of characters that are not blank, in order. -/
def words (cs : List Char) : List (List Char) :=
  closeRun (cutRuns cs).1 (cutRuns cs).2

/-- Every run of `words` has a character, and none of its characters is blank. -/
theorem word_of_mem_words {cs w : List Char} (h : w ∈ words cs) :
    w ≠ [] ∧ ∀ c ∈ w, isBlank c = false := by
  have key : ∀ cs : List Char, (∀ c ∈ (cutRuns cs).1, isBlank c = false) ∧
      ∀ w ∈ (cutRuns cs).2, w ≠ [] ∧ ∀ c ∈ w, isBlank c = false := by
    intro cs
    induction cs with
    | nil => simp [cutRuns]
    | cons c cs ih =>
      by_cases hc : isBlank c
      · refine ⟨by simp [cutRuns, hc], fun w hw => ?_⟩
        simp only [cutRuns, hc, if_true, closeRun] at hw
        split at hw
        · exact ih.2 w hw
        · rename_i hne
          rcases List.mem_cons.1 hw with rfl | hw
          · exact ⟨by simpa using hne, ih.1⟩
          · exact ih.2 w hw
      · refine ⟨fun d hd => ?_, fun w hw => ?_⟩
        · simp only [cutRuns, hc, Bool.false_eq_true, if_false] at hd
          rcases List.mem_cons.1 hd with rfl | hd
          · simpa using hc
          · exact ih.1 d hd
        · simp only [cutRuns, hc, Bool.false_eq_true, if_false] at hw
          exact ih.2 w hw
  unfold words closeRun at h
  split at h
  · exact (key cs).2 w h
  · rename_i hne
    rcases List.mem_cons.1 h with rfl | h
    · exact ⟨by simpa using hne, (key cs).1⟩
    · exact (key cs).2 w h

end BoundSql.Text
