import BoundSql.Value

/-!
Records: columns with their values, in the order in which the columns were first set.  A record
never holds a column twice; setting a column again replaces its value where it stands.
-/

namespace BoundSql

variable {α β : Type}

/-- Replaces the value of a column where it stands, or appends the column. -/
def assignField (column : String) (value : α) : List (String × α) → List (String × α)
  | [] => [(column, value)]
  | (c, v) :: rest =>
    if c = column then (c, value) :: rest else (c, v) :: assignField column value rest

/-- Setting a column leaves the columns as they are when it is among them, and appends it
otherwise. -/
theorem columns_assignField (column : String) (value : α) (fields : List (String × α)) :
    (assignField column value fields).map Prod.fst =
      if column ∈ fields.map Prod.fst then fields.map Prod.fst
      else fields.map Prod.fst ++ [column] := by
  induction fields with
  | nil => simp [assignField]
  | cons field rest ih =>
    obtain ⟨c, v⟩ := field
    by_cases h : c = column
    · subst h
      simp [assignField]
    · have h' : ¬ column = c := fun e => h e.symm
      simp only [assignField, h, if_false, List.map_cons, ih, List.mem_cons, h', false_or]
      split <;> simp_all

theorem nodup_assignField {column : String} {value : α} {fields : List (String × α)}
    (h : (fields.map Prod.fst).Nodup) :
    ((assignField column value fields).map Prod.fst).Nodup := by
  rw [columns_assignField]
  split
  · exact h
  · rename_i hc
    rw [List.nodup_append]
    refine ⟨h, by simp, fun a ha b hb => ?_⟩
    rw [List.mem_singleton.1 hb]
    exact fun e => hc (e ▸ ha)

/-- Columns with values, each column once. -/
structure Record (α : Type) where
  /-- The columns and their values, in order. -/
  fields : List (String × α)
  columns_nodup : (fields.map Prod.fst).Nodup

namespace Record

def empty : Record α := ⟨[], List.nodup_nil⟩

/-- Sets a column.  A column that is set again keeps its position and takes the new value. -/
def set (r : Record α) (column : String) (value : α) : Record α :=
  ⟨assignField column value r.fields, nodup_assignField r.columns_nodup⟩

def setNull [HasNull α] (r : Record α) (column : String) : Record α :=
  r.set column HasNull.null

/-- The record that results from setting each pair in turn. -/
def ofList (pairs : List (String × α)) : Record α :=
  pairs.foldl (fun r pair => r.set pair.1 pair.2) empty

def columns (r : Record α) : List String := r.fields.map Prod.fst

def values (r : Record α) : List α := r.fields.map Prod.snd

/-- The value of a column, if the record has the column. -/
def get? (r : Record α) (column : String) : Option α := r.fields.lookup column

def contains (r : Record α) (column : String) : Bool := (r.get? column).isSome

def size (r : Record α) : Nat := r.fields.length

def isEmpty (r : Record α) : Bool := r.fields.isEmpty

def map (f : α → β) (r : Record α) : Record β where
  fields := r.fields.map fun (c, v) => (c, f v)
  columns_nodup := by
    have h : (r.fields.map fun (c, v) => (c, f v)).map Prod.fst = r.fields.map Prod.fst := by
      simp [Function.comp_def]
    exact h ▸ r.columns_nodup

/-- The values under the given columns, NULL where the record lacks the column. -/
def cells [HasNull α] (r : Record α) (columns : List String) : List α :=
  columns.map fun c => (r.get? c).getD HasNull.null

theorem columns_set (r : Record α) (column : String) (value : α) :
    (r.set column value).columns =
      if column ∈ r.columns then r.columns else r.columns ++ [column] :=
  columns_assignField column value r.fields

theorem get?_set (r : Record α) (column : String) (value : α) (c : String) :
    (r.set column value).get? c = if c = column then some value else r.get? c := by
  show (assignField column value r.fields).lookup c = if c = column then some value
    else r.fields.lookup c
  induction r.fields with
  | nil => by_cases h : c = column <;> simp [assignField, List.lookup_cons, h, beq_false_of_ne]
  | cons field rest ih =>
    obtain ⟨k, v⟩ := field
    by_cases hk : k = column
    · subst hk
      by_cases h : c = k <;> simp [assignField, List.lookup_cons, h, beq_false_of_ne]
    · by_cases h : c = k
      · subst h
        simp [assignField, hk]
      · have hb : (c == k) = false := beq_false_of_ne h
        simp only [assignField, hk, if_false, List.lookup_cons, hb, ih]

end Record

end BoundSql
