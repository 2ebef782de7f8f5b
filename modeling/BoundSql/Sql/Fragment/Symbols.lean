import BoundSql.Sql.Fragment

/-!
The symbols of fragments.  `symbols` turns putting fragments together into putting lists
together, and a fragment is determined by its symbols: how a text was cut into pieces and how
fragments were nested leaves no trace.
-/

namespace BoundSql.Sql

variable {σ : Type}

namespace Fragment

theorem flatMap_symbols_glue (xs ys : List (Piece σ)) :
    (glue xs ys).flatMap Piece.symbols = xs.flatMap Piece.symbols ++ ys.flatMap Piece.symbols := by
  fun_induction glue xs ys with
  | case1 ys => rfl
  | case2 s t ys => simp [Piece.symbols]
  | case3 x xs ys _ ih => simp [ih]

@[simp]
theorem symbols_append (a b : Fragment σ) : (a ++ b).symbols = a.symbols ++ b.symbols :=
  flatMap_symbols_glue a.pieces b.pieces

@[simp]
theorem symbols_empty : (empty : Fragment σ).symbols = [] := rfl

@[simp]
theorem symbols_text (s : String) : (text s : Fragment σ).symbols = s.toList.map .char := by
  unfold text
  split
  · rename_i h
    subst h
    rfl
  · simp [symbols, Piece.symbols]

@[simp]
theorem symbols_slot (x : σ) : (slot x).symbols = [.slot x] := rfl

/-- A text at the start of a normal sequence shows as a character. -/
theorem flatMap_symbols_text {s : String} (h : s ≠ "") (rest : List (Piece σ)) :
    ∃ c more, (Piece.text s :: rest).flatMap Piece.symbols = .char c :: more := by
  cases hc : s.toList with
  | nil => exact absurd (String.toList_eq_nil_iff.1 hc) h
  | cons c cs => exact ⟨c, cs.map .char ++ rest.flatMap Piece.symbols, by simp [Piece.symbols, hc]⟩

/-- What follows a text in a normal sequence does not start with a character. -/
theorem flatMap_symbols_ne_char {rest : List (Piece σ)} (h : ∀ t more, rest ≠ .text t :: more)
    (c : Char) (more : List (Symbol σ)) : rest.flatMap Piece.symbols ≠ .char c :: more := by
  intro he
  cases rest with
  | nil => simp at he
  | cons p rest =>
    cases p with
    | text t => exact h t rest rfl
    | slot x => simp [Piece.symbols] at he

/-- Runs of characters that end where no character follows are equal when the whole is. -/
theorem char_run_inj {cs ds : List Char} {us vs : List (Symbol σ)}
    (hu : ∀ c more, us ≠ .char c :: more) (hv : ∀ c more, vs ≠ .char c :: more)
    (h : cs.map Symbol.char ++ us = ds.map Symbol.char ++ vs) : cs = ds ∧ us = vs := by
  induction cs generalizing ds with
  | nil =>
    cases ds with
    | nil => exact ⟨rfl, by simpa using h⟩
    | cons d ds => exact absurd (by simpa using h) (hu d _)
  | cons c cs ih =>
    cases ds with
    | nil => exact absurd (by simpa using h.symm) (hv c _)
    | cons d ds =>
      simp only [List.map_cons, List.cons_append, List.cons.injEq, Symbol.char.injEq] at h
      obtain ⟨rfl, h⟩ := h
      obtain ⟨rfl, rfl⟩ := ih h
      exact ⟨rfl, rfl⟩

/-- Sequences of pieces in normal form with the same symbols are equal. -/
theorem eq_of_flatMap_symbols_eq {xs ys : List (Piece σ)} (hx : Normal xs) (hy : Normal ys)
    (h : xs.flatMap Piece.symbols = ys.flatMap Piece.symbols) : xs = ys := by
  induction xs generalizing ys with
  | nil =>
    cases ys with
    | nil => rfl
    | cons y ys =>
      cases y with
      | slot y => simp [Piece.symbols] at h
      | text t =>
        obtain ⟨c, more, hc⟩ := flatMap_symbols_text hy.1 ys
        rw [hc] at h
        cases h
  | cons x xs ih =>
    cases x with
    | slot x =>
      cases ys with
      | nil => simp [Piece.symbols] at h
      | cons y ys =>
        cases y with
        | slot y =>
          simp only [List.flatMap_cons, Piece.symbols, List.cons_append, List.nil_append,
            List.cons.injEq, Symbol.slot.injEq] at h
          rw [h.1, ih hx.tail hy.tail h.2]
        | text t =>
          obtain ⟨c, more, hc⟩ := flatMap_symbols_text hy.1 ys
          rw [hc] at h
          simp [Piece.symbols] at h
    | text s =>
      obtain ⟨c, more, hc⟩ := flatMap_symbols_text hx.1 xs
      cases ys with
      | nil =>
        rw [hc] at h
        cases h
      | cons y ys =>
        cases y with
        | slot y =>
          rw [hc] at h
          simp [Piece.symbols] at h
        | text t =>
          obtain ⟨hst, hrest⟩ := char_run_inj (flatMap_symbols_ne_char hx.2.1)
            (flatMap_symbols_ne_char hy.2.1) h
          rw [String.toList_inj.1 hst, ih hx.2.2 hy.2.2 hrest]

/-- A fragment is determined by its symbols. -/
theorem ext_symbols {a b : Fragment σ} (h : a.symbols = b.symbols) : a = b := by
  cases a with | mk xs hx =>
  cases b with | mk ys hy =>
  have := eq_of_flatMap_symbols_eq hx hy h
  subst this
  rfl

theorem append_assoc (a b c : Fragment σ) : a ++ b ++ c = a ++ (b ++ c) :=
  ext_symbols (by simp)

@[simp]
theorem append_empty (a : Fragment σ) : a ++ empty = a := ext_symbols (by simp)

@[simp]
theorem empty_append (a : Fragment σ) : empty ++ a = a := ext_symbols (by simp)

end Fragment

end BoundSql.Sql
