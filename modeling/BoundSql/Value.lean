/-!
The values that statements bind, and the order in which a statement holds them.  `Args` is the
list of bound values; its operations are the four ways in which a query puts values into it.
-/

namespace BoundSql

/-- Types of bound values that have a NULL. -/
class HasNull (α : Type) where
  /-- The value that stands for NULL and fits a placeholder of any type. -/
  null : α

/-- A value bound to a placeholder. -/
inductive Value where
  /-- A signed word of 64 bits. -/
  | int8 (n : Int64)
  /-- A signed word of 32 bits. -/
  | int4 (n : Int32)
  | text (s : String)
  | bool (b : Bool)
  | null
  deriving DecidableEq

instance : HasNull Value := ⟨.null⟩

abbrev Args (α : Type) := List α

namespace Args

variable {α : Type}

def push (args : Args α) (a : α) : Args α := args ++ [a]

/-- Puts a value at a position and shifts the values from there on; there is no such list when
the position lies beyond the end. -/
def insert? (args : Args α) (position : Nat) (a : α) : Option (Args α) :=
  if position ≤ args.length then some (args.insertIdx position a) else none

/-- Puts a value in front of the last `count` values. -/
def insertBeforeLast (args : Args α) (count : Nat) (a : α) : Args α :=
  args.insertIdx (args.length - count) a

def extend (args other : Args α) : Args α := args ++ other

/-- Puts values in front of the list and keeps their order. -/
def prepend (args : Args α) (front : List α) : Args α := front ++ args

/-- A value put in front of a last segment lands between the two parts. -/
theorem insertBeforeLast_append (front back : List α) (a : α) :
    insertBeforeLast (front ++ back) back.length a = front ++ a :: back := by
  unfold insertBeforeLast
  rw [List.length_append, Nat.add_sub_cancel]
  induction front with
  | nil => simp
  | cons x front ih => simpa using ih

end Args

end BoundSql
