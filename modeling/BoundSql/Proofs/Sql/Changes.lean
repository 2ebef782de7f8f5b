import BoundSql.Proofs.Sql.Texts

/-! The texts of statements that change rows.  `insertText`, `conflictText`, `setText`, `whereText`
and `returningText` say what the parts of such a statement look like, with the numbers of their
placeholders, and `Command.render_insert` and `Command.render_update` put them together. -/

namespace BoundSql

open Sql Sql.Fragment

variable {σ : Type}

/-- Placeholders with commas, numbered from `n` on. -/
def marksText (style : PlaceholderStyle) (n count : Nat) : String :=
  ", ".intercalate ((List.range' n count).map style.mark)

/-- An INSERT up to its rows, which are numbered one after the other. -/
def insertText (style : PlaceholderStyle) (table : String) (columns : List String) (rows : Nat) :
    String :=
  "INSERT INTO " ++ table ++ " (" ++ ", ".intercalate columns ++ ") VALUES " ++
    ", ".intercalate ((List.range rows).map fun i =>
      "(" ++ marksText style (i * columns.length + 1) columns.length ++ ")")

/-- Assignments with commas, their placeholders numbered from `n` on. -/
def setText (style : PlaceholderStyle) (n : Nat) (columns : List String) : String :=
  ", ".intercalate (columns.mapIdx fun i c => c ++ " = " ++ style.mark (n + i))

def returningText (columns : List String) : String :=
  if columns = [] then "" else " RETURNING " ++ ", ".intercalate columns

def conflictText (target : List String) (action : String) : String :=
  " ON CONFLICT (" ++ ", ".intercalate target ++ ")" ++ action

/-- A condition as it is written, its placeholders numbered from `n` on. -/
def Condition.text (style : PlaceholderStyle) (n : Nat) : Condition σ → String
  | .raw expression => expression
  | .compare column op _ => column ++ " " ++ op.sql ++ " " ++ style.mark n
  | .between column negated _ _ =>
    column ++ (if negated then " NOT BETWEEN " else " BETWEEN ") ++ style.mark n ++ " AND "
      ++ style.mark (n + 1)
  | .membership _ negated [] => if negated then "1=1" else "1=0"
  | .membership column negated (_ :: rest) =>
    column ++ (if negated then " NOT IN (" else " IN (") ++ marksText style n (rest.length + 1)
      ++ ")"
  | .nullness column negated => column ++ if negated then " IS NOT NULL" else " IS NULL"

/-- Predicates that follow others, each behind its connective. -/
def continuationText (style : PlaceholderStyle) (n : Nat) : List (Predicate σ) → String
  | [] => ""
  | p :: rest =>
    " " ++ p.connective.sql ++ " " ++ p.condition.text style n
      ++ continuationText style (n + p.slotCount) rest

/-- A WHERE clause, its placeholders numbered from `n` on; there is none without predicates. -/
def whereText (style : PlaceholderStyle) (n : Nat) : List (Predicate σ) → String
  | [] => ""
  | p :: rest =>
    " WHERE " ++ p.condition.text style n ++ continuationText style (n + p.slotCount) rest

namespace Sql.Fragment

variable (style : PlaceholderStyle) (n : Nat)

/-- Fragments with equally many slots, each from its own number on. -/
theorem chars_commaList {as : List (Fragment σ)} {m : Nat} (h : ∀ a ∈ as, a.slots.length = m) :
    (commaList as).chars style n =
      ", ".toList.intercalate (as.mapIdx fun i a => a.chars style (n + i * m)) := by
  fun_induction commaList as generalizing n with
  | case1 => rfl
  | case2 a => simp
  | case3 a b rest ih =>
    have hnumber : ∀ i, n + (i + 1) * m = n + m + i * m := by
      intro i
      rw [Nat.succ_mul]
      omega
    have hrest : (commaList (b :: rest)).chars style (n + m) =
        ", ".toList.intercalate
          ((b :: rest).mapIdx fun i c => c.chars style (n + (i + 1) * m)) := by
      simp only [hnumber]
      exact ih (n + m) fun c hc => h c (List.mem_cons_of_mem a hc)
    rw [List.mapIdx_cons, List.intercalate_cons_of_ne_nil (by simp), ← hrest]
    simp [h a (by simp)]

theorem chars_names (columns : List String) :
    (names columns : Fragment σ).chars style n = (", ".intercalate columns).toList := by
  have hslots : ∀ a ∈ columns.map (text : String → Fragment σ), a.slots.length = 0 := by
    simp
  rw [names, chars_commaList style n hslots, String.toList_intercalate]
  congr 1
  apply List.ext_getElem <;> simp

theorem chars_slotList (xs : List σ) :
    (slotList xs).chars style n = (marksText style n xs.length).toList := by
  have hslots : ∀ a ∈ xs.map slot, a.slots.length = 1 := by simp
  rw [slotList, chars_commaList style n hslots, marksText, String.toList_intercalate]
  congr 1
  apply List.ext_getElem <;> simp

theorem chars_rows {rows : List (List σ)} {m : Nat} (h : ∀ row ∈ rows, row.length = m) :
    (commaList (rows.map fun row => (slotList row).parenthesized)).chars style n =
      (", ".intercalate ((List.range rows.length).map fun i =>
        "(" ++ marksText style (i * m + n) m ++ ")")).toList := by
  have hslots : ∀ a ∈ rows.map fun row => (slotList row).parenthesized, a.slots.length = m := by
    simpa using h
  rw [chars_commaList style n hslots, String.toList_intercalate]
  congr 1
  apply List.ext_getElem
  · simp
  · intro i hi hi'
    have hi : i < rows.length := by simpa using hi
    have hrow := h rows[i] (List.getElem_mem hi)
    simp [parenthesized, chars_slotList, hrow, Nat.add_comm]

theorem chars_listClause (keyword : String) (items : List String) :
    (listClause keyword items : Fragment σ).chars style n =
      (if items = [] then "" else keyword ++ ", ".intercalate items).toList := by
  cases items with
  | nil => rfl
  | cons c rest => simp [listClause, chars_names]

theorem chars_assignmentList (assignments : List (String × σ)) :
    (assignmentList assignments).chars style n =
      (setText style n (assignments.map Prod.fst)).toList := by
  rw [assignmentList, chars_commaList style n (m := 1), setText, String.toList_intercalate]
  · congr 1
    apply List.ext_getElem <;> simp
  · intro a ha
    obtain ⟨assignment, _, rfl⟩ := List.mem_map.mp ha
    simp

end Sql.Fragment

theorem Condition.chars_fragment (style : PlaceholderStyle) (n : Nat) (c : Condition σ) :
    c.fragment.chars style n = (c.text style n).toList := by
  delta Condition.text
  cases c with
  | membership column negated slots =>
    cases slots with
    | nil => simp [fragment]
    | cons x rest => simp [fragment, chars_slotList]
  | _ => simp [fragment]

theorem chars_continuations (style : PlaceholderStyle) (n : Nat) (predicates : List (Predicate σ)) :
    (concat (predicates.map Predicate.continuation)).chars style n =
      (continuationText style n predicates).toList := by
  induction predicates generalizing n with
  | nil => rfl
  | cons p rest ih =>
    have hslots : p.continuation.slots.length = p.slotCount := by
      simp [Predicate.continuation, Predicate.slotCount, Predicate.slots]
    rw [concat] at ih ⊢
    rw [List.map_cons, List.foldr_cons, chars_append, ih, hslots, Predicate.continuation,
      chars_append, chars_text, slots_text, List.length_nil, Nat.add_zero, Condition.chars_fragment,
      continuationText]
    simp only [String.toList_append, List.append_assoc]

theorem chars_whereClause (style : PlaceholderStyle) (n : Nat) (predicates : List (Predicate σ)) :
    (whereClause predicates).chars style n = (whereText style n predicates).toList := by
  cases predicates with
  | nil => rfl
  | cons p rest =>
    have hslots : p.condition.fragment.slots.length = p.slotCount := by
      simp [Predicate.slotCount, Predicate.slots]
    rw [whereClause, chars_append, chars_append, chars_continuations, chars_text, slots_append,
      slots_text, List.nil_append, List.length_nil, Nat.add_zero, hslots, Condition.chars_fragment,
      whereText]
    simp only [String.toList_append, List.append_assoc]

/-- What is written about the action for colliding rows, its placeholders numbered from `n` on. -/
def ConflictAction.text (style : PlaceholderStyle) (n : Nat) : ConflictAction σ → String
  | .nothing => " DO NOTHING"
  | .overwrite columns =>
    " DO UPDATE SET " ++ ", ".intercalate (columns.map fun c => c ++ " = EXCLUDED." ++ c)
  | .assign assignments => " DO UPDATE SET " ++ setText style n (assignments.map Prod.fst)

theorem ConflictAction.text_assign (style : PlaceholderStyle) (n : Nat)
    (assignments : List (String × σ)) :
    (assign assignments).text style n =
      " DO UPDATE SET " ++ setText style n (assignments.map Prod.fst) := by
  delta ConflictAction.text
  rfl

theorem Conflict.chars_fragment (style : PlaceholderStyle) (n : Nat) (c : Conflict σ) :
    c.fragment.chars style n = (conflictText c.target (c.action.text style n)).toList := by
  obtain ⟨target, action⟩ := c
  -- The equations of these definitions would compare their texts byte by byte.
  delta conflictText ConflictAction.text
  cases action <;> simp [fragment, chars_names, chars_assignmentList]

namespace Command

variable (style : PlaceholderStyle)

theorem render_insert (table : String) {columns : List String} {rows : List (List σ)}
    (hrows : ∀ row ∈ rows, row.length = columns.length) (conflict : Option (Conflict σ))
    (returning : List String) :
    (insert table columns rows conflict returning).fragment.render style =
      insertText style table columns rows.length
        ++ conflict.elim "" (fun c =>
          conflictText c.target (c.action.text style (rows.length * columns.length + 1)))
        ++ returningText returning := by
  apply String.toList_injective
  show (insert table columns rows conflict returning).fragment.chars style 1 = _
  have hslots : ((rows.map fun row => (slotList row).parenthesized).flatMap
      Fragment.slots).length = rows.length * columns.length := by
    have hrow : ∀ row : List σ, (slotList row).parenthesized.slots = row := by simp
    rw [List.flatMap_map, funext hrow, List.flatMap_id', List.length_flatten,
      List.map_congr_left hrows, List.map_const', List.sum_replicate_nat]
  have hconflict : (conflict.elim empty Conflict.fragment).chars style
        (rows.length * columns.length + 1) =
      (conflict.elim "" fun c =>
        conflictText c.target (c.action.text style (rows.length * columns.length + 1))).toList := by
    cases conflict with
    | none => rfl
    | some c => exact c.chars_fragment style _
  delta insertText
  simp only [fragment, chars_append, chars_text, chars_names, chars_rows style 1 hrows,
    chars_listClause, slots_append, slots_text, slots_names, slots_commaList, List.append_nil,
    List.nil_append, List.length_nil, hslots, Nat.add_comm 1, hconflict, returningText,
    String.toList_append]

theorem render_update (table : String) (assignments : List (String × σ))
    (predicates : List (Predicate σ)) (returning : List String) :
    (update table assignments predicates returning).fragment.render style =
      "UPDATE " ++ table ++ " SET " ++ setText style 1 (assignments.map Prod.fst)
        ++ whereText style (assignments.length + 1) predicates ++ returningText returning := by
  apply String.toList_injective
  show (update table assignments predicates returning).fragment.chars style 1 = _
  simp only [fragment, chars_append, chars_text, chars_assignmentList, chars_listClause,
    chars_whereClause, slots_append, slots_text, slots_assignmentList, List.nil_append,
    List.length_nil, List.length_map, Nat.add_comm 1, returningText, String.toList_append]

end Command

end BoundSql
