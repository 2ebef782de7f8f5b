import BoundSql.Proofs.Sql.Slots

/-! The texts around the slots of a fragment.  The text of a fragment is its gaps with a mark between
each two of them (`Fragment.render_eq_withMarks`), so that a placeholder style shows in the marks
only. -/

namespace BoundSql.Sql

variable {σ : Type}

/-- The texts in front of, between and behind the slots of a sequence of pieces. -/
def gaps : List (Piece σ) → List String
  | [] => [""]
  | .text s :: rest => (gaps rest).modifyHead (s ++ ·)
  | .slot _ :: rest => "" :: gaps rest

/-- Texts with marks between them, which are numbered from a given number. -/
def withMarks (mark : Nat → String) : Nat → List String → String
  | _, [] => ""
  | _, [s] => s
  | n, s :: t :: rest => s ++ mark n ++ withMarks mark (n + 1) (t :: rest)

theorem length_gaps (pieces : List (Piece σ)) :
    (gaps pieces).length = (pieces.filterMap Piece.slot?).length + 1 := by
  induction pieces with
  | nil => rfl
  | cons x rest ih =>
    cases x with
    | text s => rw [gaps, List.length_modifyHead, ih, List.filterMap_cons_none rfl]
    | slot x =>
      have hslot : (Piece.slot x).slot? = some x := rfl
      rw [gaps, List.length_cons, ih, List.filterMap_cons_some hslot, List.length_cons]

theorem withMarks_modifyHead (mark : Nat → String) (n : Nat) (s : String) {texts : List String}
    (h : texts ≠ []) :
    withMarks mark n (texts.modifyHead (s ++ ·)) = s ++ withMarks mark n texts := by
  match texts, h with
  | [_], _ => rfl
  | _ :: _ :: _, _ => simp only [List.modifyHead_cons, withMarks, String.append_assoc]

theorem withMarks_cons (mark : Nat → String) (n : Nat) (s : String) {texts : List String}
    (h : texts ≠ []) :
    withMarks mark n (s :: texts) = s ++ mark n ++ withMarks mark (n + 1) texts := by
  obtain ⟨t, rest, rfl⟩ := List.exists_cons_of_ne_nil h
  rfl

theorem renderFrom_eq_withMarks (style : PlaceholderStyle) (n : Nat) (pieces : List (Piece σ)) :
    renderFrom style n pieces = withMarks style.mark n (gaps pieces) := by
  have hne : ∀ rest : List (Piece σ), gaps rest ≠ [] := fun rest hnil => by
    have hlength := length_gaps rest
    rw [hnil] at hlength
    cases hlength
  induction pieces generalizing n with
  | nil => rfl
  | cons x rest ih =>
    cases x with
    | text s => rw [renderFrom, gaps, withMarks_modifyHead _ _ _ (hne rest), ih]
    | slot x => rw [renderFrom, gaps, withMarks_cons _ _ _ (hne rest), ih, String.empty_append]

/-- Marks counted from a later number are later marks. -/
theorem withMarks_add (mark : Nat → String) (m n : Nat) (texts : List String) :
    withMarks mark (m + n) texts = withMarks (fun k => mark (m + k)) n texts := by
  match texts with
  | [] | [_] => rfl
  | s :: t :: rest =>
    rw [withMarks, withMarks, Nat.add_assoc, withMarks_add mark m (n + 1) (t :: rest)]

namespace Fragment

/-- The texts in front of, between and behind the slots of a fragment. -/
def gaps (a : Fragment σ) : List String := Sql.gaps a.pieces

theorem length_gaps (a : Fragment σ) : a.gaps.length = a.slotCount + 1 := Sql.length_gaps a.pieces

/-- The style of a text shows in its marks only. -/
theorem render_eq_withMarks (style : PlaceholderStyle) (a : Fragment σ) :
    a.render style = withMarks style.mark 1 a.gaps :=
  renderFrom_eq_withMarks style 1 a.pieces

end Fragment

end BoundSql.Sql
