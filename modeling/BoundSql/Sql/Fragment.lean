/-!
Fragments of SQL: texts and slots in sequence.  A fragment is kept in a normal form, in which no
text is empty and no two texts stand side by side, so it is determined by the characters and
slots it consists of (`ext_symbols`) and fragments form a monoid.  Slots get their numbers when
the whole statement is rendered, so parts can be put together in any way before that.
-/

namespace BoundSql.Sql

variable {σ : Type}

inductive Piece (σ : Type) where
  | text (s : String)
  | slot (x : σ)
  deriving DecidableEq

inductive Symbol (σ : Type) where
  | char (c : Char)
  | slot (x : σ)
  deriving DecidableEq

def Piece.symbols : Piece σ → List (Symbol σ)
  | .text s => s.toList.map .char
  | .slot x => [.slot x]

/-- No text is empty, and no text follows a text. -/
def Normal : List (Piece σ) → Prop
  | [] => True
  | .slot _ :: rest => Normal rest
  | .text s :: rest => s ≠ "" ∧ (∀ t more, rest ≠ .text t :: more) ∧ Normal rest

/-- Puts two sequences of pieces together and joins the texts that meet. -/
def glue : List (Piece σ) → List (Piece σ) → List (Piece σ)
  | [], ys => ys
  | [.text s], .text t :: ys => .text (s ++ t) :: ys
  | x :: xs, ys => x :: glue xs ys

theorem glue_cons_cons (x y : Piece σ) (xs ys : List (Piece σ)) :
    glue (x :: y :: xs) ys = x :: glue (y :: xs) ys := by
  rw [glue]
  simp

theorem glue_slot (x : σ) (xs ys : List (Piece σ)) :
    glue (.slot x :: xs) ys = .slot x :: glue xs ys := by
  rw [glue]
  simp

theorem Normal.tail {x : Piece σ} {xs : List (Piece σ)} (h : Normal (x :: xs)) : Normal xs := by
  cases x with
  | text s => exact h.2.2
  | slot x => exact h

theorem Normal.glue {xs ys : List (Piece σ)} (hx : Normal xs) (hy : Normal ys) :
    Normal (glue xs ys) := by
  induction xs with
  | nil => exact hy
  | cons x xs ih =>
    cases x with
    | slot x =>
      rw [glue_slot]
      exact ih hx
    | text s =>
      cases xs with
      | nil =>
        cases ys with
        | nil => exact ⟨hx.1, by simp [Sql.glue], trivial⟩
        | cons y ys =>
          cases y with
          | slot y => exact ⟨hx.1, by simp [Sql.glue], hy⟩
          | text t =>
            exact ⟨by simp [String.append_eq_empty_iff, hx.1], hy.2.1, hy.2.2⟩
      | cons y xs =>
        rw [glue_cons_cons]
        cases y with
        | text t => exact absurd rfl (hx.2.1 t xs)
        | slot y =>
          refine ⟨hx.1, fun t more h => ?_, ih hx.tail⟩
          rw [glue_slot] at h
          cases h

/-- A sequence of texts and slots in normal form. -/
structure Fragment (σ : Type) where
  pieces : List (Piece σ)
  normal : Normal pieces

namespace Fragment

def empty : Fragment σ := ⟨[], trivial⟩

def text (s : String) : Fragment σ :=
  if h : s = "" then empty else ⟨[.text s], h, by simp, trivial⟩

def slot (x : σ) : Fragment σ := ⟨[.slot x], trivial⟩

/-- Two fragments one after the other. -/
def append (a b : Fragment σ) : Fragment σ := ⟨glue a.pieces b.pieces, a.normal.glue b.normal⟩

instance : Append (Fragment σ) := ⟨append⟩

def concat (fragments : List (Fragment σ)) : Fragment σ := fragments.foldr (· ++ ·) empty

/-- Fragments one after the other with a comma and a blank between them. -/
def commaList : List (Fragment σ) → Fragment σ
  | [] => empty
  | [a] => a
  | a :: b :: rest => a ++ text ", " ++ commaList (b :: rest)

/-- A list of texts, such as columns, with commas. -/
def names (columns : List String) : Fragment σ := commaList (columns.map text)

def slotList (xs : List σ) : Fragment σ := commaList (xs.map slot)

def parenthesized (a : Fragment σ) : Fragment σ := text "(" ++ a ++ text ")"

/-- What a fragment consists of, character by character. -/
def symbols (a : Fragment σ) : List (Symbol σ) := a.pieces.flatMap Piece.symbols

/-- The contents of the slots of a fragment, from left to right. -/
def slots (a : Fragment σ) : List σ :=
  a.pieces.filterMap fun
    | .text _ => none
    | .slot x => some x

def slotCount (a : Fragment σ) : Nat := a.slots.length

end Fragment

/-- How the slots of a statement are written. -/
inductive PlaceholderStyle where
  /-- `$1`, `$2` and so on. -/
  | dollar
  /-- `?` for every slot. -/
  | question
  deriving DecidableEq

def PlaceholderStyle.mark : PlaceholderStyle → Nat → String
  | .dollar, n => "$" ++ toString n
  | .question, _ => "?"

/-- The text of a sequence of pieces whose first slot has a given number. -/
def renderFrom (style : PlaceholderStyle) : Nat → List (Piece σ) → String
  | _, [] => ""
  | n, .text s :: rest => s ++ renderFrom style n rest
  | n, .slot _ :: rest => style.mark n ++ renderFrom style (n + 1) rest

namespace Fragment

/-- The text of a fragment, its slots numbered from 1 from left to right. -/
def render (style : PlaceholderStyle) (a : Fragment σ) : String := renderFrom style 1 a.pieces

end Fragment

end BoundSql.Sql
