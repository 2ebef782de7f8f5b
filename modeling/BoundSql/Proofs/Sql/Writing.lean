import BoundSql.Proofs.Sql.Gaps
import BoundSql.Proofs.Sql.Texts
import Mathlib.Data.List.Chain

/-! Fragments written part by part.  A `Writer` adds to its end only: a text goes to the last piece
when that is a text, and the number of slots is kept beside the pieces.  Parts of any size can be
written with writers of their own and spliced in.  Whatever is written, and in whichever parts, the
pieces are those of the fragment that the parts make, so a writer is determined by the characters
and slots that were written (`Writer.written_faithful`). -/

namespace BoundSql.Sql

variable {σ : Type}

def Piece.isSlot (p : Piece σ) : Bool := p.slot?.isSome

theorem normal_iff {xs : List (Piece σ)} :
    Normal xs ↔ (∀ s, .text s ∈ xs → s ≠ "") ∧ xs.IsChain fun p q => p.isSlot ∨ q.isSlot := by
  induction xs with
  | nil => simp [Normal]
  | cons x xs ih =>
    cases x with
    | slot x => simp [Normal, ih, List.isChain_cons, Piece.isSlot, Piece.slot?]
    | text s =>
      have hnext : (∀ t more, xs ≠ .text t :: more) ↔ ∀ p ∈ xs.head?, p.isSlot := by
        cases xs with
        | nil => simp
        | cons p rest => cases p <;> simp [Piece.isSlot, Piece.slot?]
      have htext : (Piece.text s : Piece σ).isSlot = false := rfl
      rw [Normal, ih, hnext, List.isChain_cons]
      simp only [htext, Bool.false_eq_true, false_or, List.mem_cons, Piece.text.injEq]
      constructor
      · rintro ⟨hs, hhead, hrest, hchain⟩
        refine ⟨?_, hhead, hchain⟩
        rintro t (rfl | ht)
        · exact hs
        · exact hrest t ht
      · rintro ⟨hall, hhead, hchain⟩
        exact ⟨hall s (.inl rfl), hhead, fun t ht => hall t (.inr ht), hchain⟩

/-- Sequences that end in a text are lengthened by texts there. -/
theorem glue_concat_text (xs : List (Piece σ)) (t s : String) :
    glue (xs ++ [.text t]) [.text s] = xs ++ [.text (t ++ s)] := by
  induction xs with
  | nil => rfl
  | cons x xs ih =>
    cases xs with
    | nil => cases x <;> rfl
    | cons y xs =>
      simp only [List.cons_append] at ih ⊢
      rw [glue_cons_cons, ih]

theorem glue_concat_slot (xs : List (Piece σ)) (x : σ) (ys : List (Piece σ)) :
    glue (xs ++ [.slot x]) ys = xs ++ .slot x :: ys := by
  induction xs with
  | nil => simp [glue_slot, glue]
  | cons y xs ih =>
    cases xs with
    | nil => cases y <;> simp [glue_cons_cons, glue]
    | cons z xs =>
      simp only [List.cons_append] at ih ⊢
      rw [glue_cons_cons, ih]

theorem glue_slot_cons (xs : List (Piece σ)) (x : σ) (ys : List (Piece σ)) :
    glue xs (.slot x :: ys) = xs ++ .slot x :: ys := by
  induction xs with
  | nil => rfl
  | cons y xs ih =>
    cases xs with
    | nil => cases y <;> rfl
    | cons z xs =>
      rw [glue_cons_cons, ih]
      rfl

def Piece.fragment : Piece σ → Fragment σ
  | .text s => .text s
  | .slot x => .slot x

namespace Fragment

theorem eq_fragment_append {p : Piece σ} {rest : List (Piece σ)}
    (h : Normal (p :: rest)) : (⟨p :: rest, h⟩ : Fragment σ) = p.fragment ++ ⟨rest, h.tail⟩ := by
  apply ext_symbols
  rw [symbols_append]
  cases p with
  | text s => rw [Piece.fragment, symbols_text]; rfl
  | slot x => rfl

theorem symbols_slotList (x : σ) (xs : List σ) :
    (slotList (x :: xs)).symbols =
      .slot x :: xs.flatMap fun x => [.char ',', .char ' ', .slot x] := by
  induction xs generalizing x with
  | nil => rfl
  | cons y xs ih =>
    have hsplit : slotList (x :: y :: xs) =
        .slot x ++ .text ", " ++ .slotList (y :: xs) := rfl
    rw [hsplit, symbols_append, ih, symbols_append, symbols_text]
    rfl

theorem slotCount_eq_countP (a : Fragment σ) : a.slotCount = a.pieces.countP Piece.isSlot := by
  rw [slotCount, slots_eq, List.length_filterMap_eq_countP]
  rfl

theorem render_append (style : PlaceholderStyle) (a b : Fragment σ) :
    (a ++ b).render style =
      a.render style ++ withMarks (fun k => style.mark (a.slotCount + k)) 1 b.gaps := by
  have hglue : (a ++ b).render style =
      a.render style ++ renderFrom style (1 + a.slotCount) b.pieces :=
    renderFrom_glue style 1 a.pieces b.pieces
  rw [hglue, Nat.add_comm, renderFrom_eq_withMarks, withMarks_add]
  rfl

end Fragment

/-- The pieces written so far, with the number of slots among them kept beside. -/
structure Writer (σ : Type) where
  pieces : List (Piece σ)
  slotCount : Nat

namespace Writer

def empty : Writer σ := ⟨[], 0⟩

/-- Writes a text, to the last piece if that is a text.  An empty text leaves no trace. -/
def text (w : Writer σ) (s : String) : Writer σ :=
  if s = "" then w
  else match w.pieces.getLast? with
    | some (.text t) => { w with pieces := w.pieces.dropLast ++ [.text (t ++ s)] }
    | _ => { w with pieces := w.pieces ++ [.text s] }

def slot (w : Writer σ) (x : σ) : Writer σ := ⟨w.pieces ++ [.slot x], w.slotCount + 1⟩

/-- Writes slots with a comma and a blank before each but the first. -/
def slots (w : Writer σ) : List σ → Writer σ
  | [] => w
  | x :: xs => xs.foldl (fun w x => (w.text ", ").slot x) (w.slot x)

def piece (w : Writer σ) : Piece σ → Writer σ
  | .text s => w.text s
  | .slot x => w.slot x

/-- Writes what another writer has, piece by piece. -/
def splice (w other : Writer σ) : Writer σ := other.pieces.foldl piece w

def parenthesized (w other : Writer σ) : Writer σ := ((w.text "(").splice other).text ")"

def render (style : PlaceholderStyle) (w : Writer σ) : String := renderFrom style 1 w.pieces

/-- What can be asked of a writer.  What is spliced in is written in the same way. -/
inductive Call (σ : Type) where
  | text (s : String)
  | slot (x : σ)
  | slots (xs : List σ)
  | splice (calls : List (Call σ))
  | parenthesized (calls : List (Call σ))

mutual

def call (w : Writer σ) : Call σ → Writer σ
  | .text s => w.text s
  | .slot x => w.slot x
  | .slots xs => w.slots xs
  | .splice calls => w.splice (empty.callAll calls)
  | .parenthesized calls => w.parenthesized (empty.callAll calls)

def callAll (w : Writer σ) : List (Call σ) → Writer σ
  | [] => w
  | c :: calls => (w.call c).callAll calls

end

/-- What a fresh writer has after calls. -/
def written (calls : List (Call σ)) : Writer σ := empty.callAll calls

mutual

/-- The fragment of what a call writes. -/
def Call.fragment : Call σ → Fragment σ
  | .text s => .text s
  | .slot x => .slot x
  | .slots xs => .slotList xs
  | .splice calls => fragmentOf calls
  | .parenthesized calls => (fragmentOf calls).parenthesized

def fragmentOf : List (Call σ) → Fragment σ
  | [] => .empty
  | c :: calls => c.fragment ++ fragmentOf calls

end

mutual

/-- The characters and slots that a call writes, however they are put together. -/
def Call.symbols : Call σ → List (Symbol σ)
  | .text s => s.toList.map .char
  | .slot x => [.slot x]
  | .slots [] => []
  | .slots (x :: xs) => .slot x :: xs.flatMap fun x => [.char ',', .char ' ', .slot x]
  | .splice calls => symbolsOf calls
  | .parenthesized calls => .char '(' :: symbolsOf calls ++ [.char ')']

def symbolsOf : List (Call σ) → List (Symbol σ)
  | [] => []
  | c :: calls => c.symbols ++ symbolsOf calls

end

/-- The writer that has the pieces of a fragment. -/
def ofFragment (a : Fragment σ) : Writer σ := ⟨a.pieces, a.slotCount⟩

/-! ### Every call appends the fragment of what it writes -/

theorem ofFragment_text (a : Fragment σ) (s : String) :
    (ofFragment a).text s = ofFragment (a ++ .text s) := by
  unfold text
  split
  · rename_i hs
    have hempty : (.text s : Fragment σ) = .empty := dif_pos hs
    rw [hempty, Fragment.append_empty]
  · rename_i hs
    have hpieces : (a ++ .text s).pieces = glue a.pieces [.text s] := by
      have htext : (.text s : Fragment σ).pieces = [.text s] := by rw [Fragment.text, dif_neg hs]
      rw [← htext]
      rfl
    have hcount : (a ++ .text s).slotCount = a.slotCount := by simp [Fragment.slotCount]
    rw [ofFragment, ofFragment, hpieces, hcount]
    rcases List.eq_nil_or_concat' a.pieces with hnil | ⟨front, last, hlast⟩
    · simp [hnil, glue]
    · cases last with
      | text t => simp [hlast, glue_concat_text]
      | slot x => simp [hlast, glue_concat_slot]

theorem ofFragment_slot (a : Fragment σ) (x : σ) :
    (ofFragment a).slot x = ofFragment (a ++ .slot x) := by
  have hpieces : (a ++ .slot x).pieces = a.pieces ++ [.slot x] := glue_slot_cons a.pieces x []
  have hcount : (a ++ .slot x).slotCount = a.slotCount + 1 := by simp [Fragment.slotCount]
  rw [slot, ofFragment, ofFragment, hpieces, hcount]

theorem ofFragment_slots (a : Fragment σ) (xs : List σ) :
    (ofFragment a).slots xs = ofFragment (a ++ .slotList xs) := by
  cases xs with
  | nil => exact congrArg ofFragment a.append_empty.symm
  | cons x xs =>
    -- All slots but the first go behind a comma, to a longer fragment each.
    induction xs generalizing a x with
    | nil => exact ofFragment_slot a x
    | cons y xs ih =>
      have hsplit : a ++ .slotList (x :: y :: xs) =
          a ++ .slot x ++ .text ", " ++ .slotList (y :: xs) := by
        rw [Fragment.append_assoc, Fragment.append_assoc, ← Fragment.append_assoc (.slot x)]
        rfl
      rw [hsplit, ← ih, ← ofFragment_text, ← ofFragment_slot]
      rfl

theorem piece_ofFragment (a : Fragment σ) (p : Piece σ) :
    (ofFragment a).piece p = ofFragment (a ++ p.fragment) := by
  cases p with
  | text s => exact ofFragment_text a s
  | slot x => exact ofFragment_slot a x

theorem ofFragment_splice (a b : Fragment σ) :
    (ofFragment a).splice (ofFragment b) = ofFragment (a ++ b) := by
  obtain ⟨pieces, hnormal⟩ := b
  show pieces.foldl piece (ofFragment a) = _
  induction pieces generalizing a with
  | nil => exact congrArg ofFragment a.append_empty.symm
  | cons p rest ih =>
    rw [List.foldl_cons, piece_ofFragment, ih _ hnormal.tail, Fragment.append_assoc,
      ← Fragment.eq_fragment_append]

theorem ofFragment_parenthesized (a b : Fragment σ) :
    (ofFragment a).parenthesized (ofFragment b) = ofFragment (a ++ b.parenthesized) := by
  rw [parenthesized, ofFragment_text, ofFragment_splice, ofFragment_text, Fragment.parenthesized]
  simp only [Fragment.append_assoc]

mutual

theorem call_ofFragment (a : Fragment σ) (c : Call σ) :
    (ofFragment a).call c = ofFragment (a ++ c.fragment) := by
  cases c with
  | text s => rw [call, ofFragment_text, Call.fragment]
  | slot x => rw [call, ofFragment_slot, Call.fragment]
  | slots xs => rw [call, ofFragment_slots, Call.fragment]
  | splice calls =>
    have hcalls := callAll_ofFragment .empty calls
    rw [Fragment.empty_append] at hcalls
    rw [call, Call.fragment, ← ofFragment_splice, ← hcalls]
    rfl
  | parenthesized calls =>
    have hcalls := callAll_ofFragment .empty calls
    rw [Fragment.empty_append] at hcalls
    rw [call, Call.fragment, ← ofFragment_parenthesized, ← hcalls]
    rfl

theorem callAll_ofFragment (a : Fragment σ) (calls : List (Call σ)) :
    (ofFragment a).callAll calls = ofFragment (a ++ fragmentOf calls) := by
  cases calls with
  | nil => exact congrArg ofFragment a.append_empty.symm
  | cons c calls =>
    rw [callAll, call_ofFragment a c, callAll_ofFragment _ calls, Fragment.append_assoc]
    rfl

end

theorem written_eq (calls : List (Call σ)) : written calls = ofFragment (fragmentOf calls) := by
  have h := callAll_ofFragment .empty calls
  rwa [Fragment.empty_append] at h

/-! ### What is written -/

mutual

theorem symbols_fragment (c : Call σ) : c.fragment.symbols = c.symbols := by
  cases c with
  | text s => rw [Call.fragment, Fragment.symbols_text, Call.symbols]
  | slot x => rfl
  | slots xs =>
    cases xs with
    | nil => rfl
    | cons x xs => rw [Call.fragment, Fragment.symbols_slotList, Call.symbols]
  | splice calls => rw [Call.fragment, Call.symbols, symbols_fragmentOf calls]
  | parenthesized calls =>
    rw [Call.fragment, Call.symbols, Fragment.parenthesized, Fragment.symbols_append,
      Fragment.symbols_append, symbols_fragmentOf calls, Fragment.symbols_text,
      Fragment.symbols_text]
    rfl

theorem symbols_fragmentOf (calls : List (Call σ)) :
    (fragmentOf calls).symbols = symbolsOf calls := by
  cases calls with
  | nil => rfl
  | cons c calls =>
    rw [fragmentOf, symbolsOf, Fragment.symbols_append, symbols_fragment c,
      symbols_fragmentOf calls]

end

theorem ofFragment_inj {a b : Fragment σ} : ofFragment a = ofFragment b ↔ a = b := by
  constructor
  · intro h
    exact Fragment.ext_pieces (congrArg Writer.pieces h)
  · exact congrArg ofFragment

/-- A writer has no empty text, no two texts side by side and as many slots as it counts.  It is that
of the fragment that its parts make, and it is determined by the characters and slots that were
written: how a text was cut and how parts were nested leaves no trace.  Splicing in a writer is
writing again what it was asked to write, and goes on with the numbers of the slots. -/
theorem written_faithful (calls : List (Call σ)) :
    let w := written calls
    w = ofFragment (fragmentOf calls) ∧
    (∀ s, .text s ∈ w.pieces → s ≠ "") ∧
    (w.pieces.IsChain fun p q => p.isSlot ∨ q.isSlot) ∧
    w.slotCount = w.pieces.countP Piece.isSlot ∧
    empty.splice w = w ∧ w.splice empty = w ∧
    ∀ more : List (Call σ),
      (written more = w ↔ symbolsOf more = symbolsOf calls) ∧
      w.splice (written more) = w.callAll more ∧
      (∀ last : List (Call σ), (w.splice (written more)).splice (written last) =
        w.splice ((written more).splice (written last))) ∧
      (w.splice (written more)).render .dollar = w.render .dollar ++
        withMarks (fun k => "$" ++ toString (w.slotCount + k)) 1 (gaps (written more).pieces) := by
  intro w
  have hw : w = ofFragment (fragmentOf calls) := written_eq calls
  have hempty : (empty : Writer σ) = ofFragment .empty := rfl
  obtain ⟨htexts, hchain⟩ := normal_iff.mp (fragmentOf calls).normal
  rw [hw]
  refine ⟨rfl, htexts, hchain, Fragment.slotCount_eq_countP _, ?_, ?_,
    fun more => ⟨?_, ?_, fun last => ?_, ?_⟩⟩
  · rw [hempty, ofFragment_splice, Fragment.empty_append]
  · rw [hempty, ofFragment_splice, Fragment.append_empty]
  · rw [written_eq, ofFragment_inj, ← symbols_fragmentOf, ← symbols_fragmentOf]
    exact ⟨congrArg Fragment.symbols, Fragment.ext_symbols⟩
  · rw [written_eq, ofFragment_splice, callAll_ofFragment]
  · simp only [written_eq, ofFragment_splice, Fragment.append_assoc]
  · rw [written_eq, ofFragment_splice]
    exact Fragment.render_append .dollar _ _

example : (written [.text "a = ", .slot 1, .text " UN", .text "ION ", .parenthesized
    [.text "b IN ", .parenthesized [.slots [2, 3]]]]).render .dollar =
      "a = $1 UNION (b IN ($2, $3))" := by
  decide

end Writer

end BoundSql.Sql
