import BoundSql.Sql.Fragment.Symbols

/-! The slots of fragments.  `slots` and `map` turn putting fragments together into putting lists
and images together, what stands in the slots plays no part in the text, and `fill?` puts values
into the slots from left to right. -/

namespace BoundSql.Sql

variable {σ τ : Type}

/-- What stands in the slot that a piece is. -/
def Piece.slot? : Piece σ → Option σ
  | .text _ => none
  | .slot x => some x

/-- Applies a function to what stands in a slot. -/
def Piece.map (f : σ → τ) : Piece σ → Piece τ
  | .text s => .text s
  | .slot x => .slot (f x)

theorem glue_map (f : σ → τ) (xs ys : List (Piece σ)) :
    (glue xs ys).map (Piece.map f) = glue (xs.map (Piece.map f)) (ys.map (Piece.map f)) := by
  induction xs with
  | nil => rfl
  | cons x xs ih =>
    cases x with
    | slot x => simp [glue_slot, Piece.map, ih]
    | text s =>
      cases xs with
      | cons y xs => simpa [glue_cons_cons] using ih
      | nil =>
        cases ys with
        | nil => rfl
        | cons y ys => cases y <;> rfl

theorem Normal.map {xs : List (Piece σ)} (h : Normal xs) (f : σ → τ) :
    Normal (xs.map (Piece.map f)) := by
  induction xs with
  | nil => trivial
  | cons x xs ih =>
    cases x with
    | slot x => exact ih h
    | text s =>
      refine ⟨h.1, fun t more ht => ?_, ih h.2.2⟩
      cases xs with
      | nil => cases ht
      | cons y ys =>
        cases y with
        | slot y => cases ht
        | text u => exact h.2.1 u ys rfl

theorem filterMap_slot?_glue (xs ys : List (Piece σ)) :
    (glue xs ys).filterMap Piece.slot? =
      xs.filterMap Piece.slot? ++ ys.filterMap Piece.slot? := by
  fun_induction glue xs ys with
  | case1 ys => rfl
  | case2 s t ys => simp [List.filterMap_cons, Piece.slot?]
  | case3 x xs ys _ ih => cases x <;> simp [List.filterMap_cons, Piece.slot?, ih]

/-- Puts values into the slots of a sequence of pieces, from left to right.  There is no result
unless there are as many values as slots. -/
def fillPieces? : List (Piece σ) → List τ → Option (List (Piece τ))
  | [], [] => some []
  | [], _ :: _ => none
  | .text s :: rest, values => (fillPieces? rest values).map (.text s :: ·)
  | .slot _ :: _, [] => none
  | .slot _ :: rest, a :: values => (fillPieces? rest values).map (.slot a :: ·)

theorem fillPieces?_map (f : σ → τ) (xs : List (Piece σ)) :
    fillPieces? (xs.map (Piece.map f)) (xs.filterMap Piece.slot?) = some xs := by
  induction xs with
  | nil => rfl
  | cons x xs ih => cases x <;> simp [List.filterMap_cons, Piece.map, Piece.slot?, fillPieces?, ih]

theorem renderFrom_map (style : PlaceholderStyle) (f : σ → τ) (n : Nat) (xs : List (Piece σ)) :
    renderFrom style n (xs.map (Piece.map f)) = renderFrom style n xs := by
  induction xs generalizing n with
  | nil => rfl
  | cons x xs ih => cases x <;> simp [Piece.map, renderFrom, ih]

namespace Fragment

def map (f : σ → τ) (a : Fragment σ) : Fragment τ := ⟨a.pieces.map (Piece.map f), a.normal.map f⟩

/-- The pieces of a fragment with values in its slots, from left to right. -/
def fill? (a : Fragment σ) (values : List τ) : Option (List (Piece τ)) :=
  fillPieces? a.pieces values

theorem ext_pieces {a b : Fragment σ} (h : a.pieces = b.pieces) : a = b := by
  cases a
  cases b
  subst h
  rfl

theorem slots_eq (a : Fragment σ) : a.slots = a.pieces.filterMap Piece.slot? := rfl

@[simp]
theorem slots_append (a b : Fragment σ) : (a ++ b).slots = a.slots ++ b.slots :=
  filterMap_slot?_glue a.pieces b.pieces

@[simp]
theorem slots_empty : (empty : Fragment σ).slots = [] := rfl

@[simp]
theorem slots_text (s : String) : (text s : Fragment σ).slots = [] := by
  unfold text
  split <;> rfl

@[simp]
theorem slots_slot (x : σ) : (slot x).slots = [x] := rfl

@[simp]
theorem slots_parenthesized (a : Fragment σ) : a.parenthesized.slots = a.slots := by
  simp [parenthesized]

@[simp]
theorem slots_concat (fragments : List (Fragment σ)) :
    (concat fragments).slots = fragments.flatMap slots := by
  induction fragments with
  | nil => rfl
  | cons a rest ih =>
    rw [concat] at ih ⊢
    simp [ih]

@[simp]
theorem slots_commaList (fragments : List (Fragment σ)) :
    (commaList fragments).slots = fragments.flatMap slots := by
  fun_induction commaList fragments with
  | case1 => rfl
  | case2 a => simp
  | case3 a b rest ih => simp [ih]

@[simp]
theorem slots_slotList (xs : List σ) : (slotList xs).slots = xs := by
  simp [slotList, List.flatMap_map]

@[simp]
theorem slots_names (columns : List String) : (names columns : Fragment σ).slots = [] := by
  simp [names, List.flatMap_map]

@[simp]
theorem map_append (f : σ → τ) (a b : Fragment σ) : (a ++ b).map f = a.map f ++ b.map f :=
  ext_pieces (glue_map f a.pieces b.pieces)

@[simp]
theorem map_empty (f : σ → τ) : (empty : Fragment σ).map f = empty := rfl

@[simp]
theorem map_text (f : σ → τ) (s : String) : (text s : Fragment σ).map f = text s := by
  unfold text
  split <;> rfl

@[simp]
theorem map_slot (f : σ → τ) (x : σ) : (slot x).map f = slot (f x) := rfl

@[simp]
theorem map_parenthesized (f : σ → τ) (a : Fragment σ) :
    a.parenthesized.map f = (a.map f).parenthesized := by
  simp [parenthesized]

@[simp]
theorem map_concat (f : σ → τ) (fragments : List (Fragment σ)) :
    (concat fragments).map f = concat (fragments.map (map f)) := by
  induction fragments with
  | nil => rfl
  | cons a rest ih =>
    rw [concat] at ih ⊢
    simp [concat, ih]

@[simp]
theorem map_commaList (f : σ → τ) (fragments : List (Fragment σ)) :
    (commaList fragments).map f = commaList (fragments.map (map f)) := by
  fun_induction commaList fragments with
  | case1 => rfl
  | case2 a => rfl
  | case3 a b rest ih => simp [commaList, ih]

@[simp]
theorem map_slotList (f : σ → τ) (xs : List σ) : (slotList xs).map f = slotList (xs.map f) := by
  simp [slotList, Function.comp_def]

@[simp]
theorem map_names (f : σ → τ) (columns : List String) :
    (names columns : Fragment σ).map f = names columns := by
  simp [names, Function.comp_def]

theorem slots_map (f : σ → τ) (a : Fragment σ) : (a.map f).slots = a.slots.map f := by
  rw [slots_eq, slots_eq, map, List.filterMap_map, List.map_filterMap]
  congr 1
  funext piece
  cases piece <;> rfl

/-- What stands in the slots plays no part in the text. -/
@[simp]
theorem render_map (style : PlaceholderStyle) (f : σ → τ) (a : Fragment σ) :
    (a.map f).render style = a.render style :=
  renderFrom_map style f 1 a.pieces

/-- Putting back what stood in the slots gives the fragment again. -/
theorem fill?_map (f : σ → τ) (a : Fragment σ) : (a.map f).fill? a.slots = some a.pieces :=
  fillPieces?_map f a.pieces

end Fragment

end BoundSql.Sql
