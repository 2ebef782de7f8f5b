import BoundSql.Text.Blank

/-!
Conditions of a WHERE clause.  A condition is polymorphic in what stands in its slots: with values
it is what a caller asks for, with holes it is what a text is written from.  A query keeps a
condition as a `Filter`, which holds the number of the values that were bound for it in place of
the values.
-/

namespace BoundSql

variable {σ τ : Type}

/-- What a slot holds when its value is kept elsewhere. -/
abbrev Hole := Unit

/-- How a condition joins the conditions before it. -/
inductive Connective where
  | and
  | or
  deriving DecidableEq

def Connective.sql : Connective → String
  | .and => "AND"
  | .or => "OR"

inductive Comparison where
  | eq
  | ne
  | gt
  | ge
  | lt
  | le
  | like
  | notLike
  | ilike
  | notIlike
  deriving DecidableEq

namespace Comparison

def sql : Comparison → String
  | .eq => "="
  | .ne => "!="
  | .gt => ">"
  | .ge => ">="
  | .lt => "<"
  | .le => "<="
  | .like => "LIKE"
  | .notLike => "NOT LIKE"
  | .ilike => "ILIKE"
  | .notIlike => "NOT ILIKE"

/-- The spellings of a comparison as words, letters in upper case. -/
def spellings : Comparison → List (List String)
  | .eq => [["="], ["=="]]
  | .ne => [["!="], ["<>"]]
  | .gt => [[">"]]
  | .ge => [[">="]]
  | .lt => [["<"]]
  | .le => [["<="]]
  | .like => [["LIKE"]]
  | .notLike => [["NOT", "LIKE"]]
  | .ilike => [["ILIKE"]]
  | .notIlike => [["NOT", "ILIKE"]]

def all : List Comparison :=
  [.eq, .ne, .gt, .ge, .lt, .le, .like, .notLike, .ilike, .notIlike]

/-- The words of an operator text with ASCII letters in upper case. -/
def tokens (text : String) : List String :=
  (Text.words text.toList).map fun w => String.ofList (w.map Char.toUpper)

/-- The comparison that an operator text spells; blanks around and between its words and the
case of ASCII letters do not matter. -/
def ofText? (text : String) : Option Comparison :=
  all.find? fun op => op.spellings.contains (tokens text)

theorem mem_all (op : Comparison) : op ∈ all := by cases op <;> decide

/-- No two comparisons share a spelling. -/
theorem eq_of_mem_spellings {op other : Comparison} {words : List String}
    (h : words ∈ op.spellings) (h' : words ∈ other.spellings) : op = other := by
  cases op <;> cases other <;> simp_all [spellings] <;>
    rcases h with rfl | rfl <;> simp at h'

/-- An operator text spells a comparison exactly when its words are one of the spellings. -/
theorem ofText?_eq_some_iff {text : String} {op : Comparison} :
    ofText? text = some op ↔ tokens text ∈ op.spellings := by
  constructor
  · intro h
    simpa using List.find?_some h
  · intro h
    cases hf : ofText? text with
    | none => simpa using List.find?_eq_none.1 hf op (mem_all op) (by simpa using h)
    | some other =>
      have ho : tokens text ∈ other.spellings := by simpa using List.find?_some hf
      rw [eq_of_mem_spellings ho h]

end Comparison

/-- One condition of a WHERE clause. -/
inductive Condition (σ : Type) where
  /-- A text that is a boolean expression as it stands. -/
  | raw (text : String)
  | compare (column : String) (op : Comparison) (slot : σ)
  | between (column : String) (negated : Bool) (low high : σ)
  | membership (column : String) (negated : Bool) (slots : List σ)
  /-- `IS NULL`, negated `IS NOT NULL`. -/
  | nullness (column : String) (negated : Bool)
  deriving DecidableEq

namespace Condition

/-- The slots of a condition, from left to right. -/
def slots : Condition σ → List σ
  | .raw _ => []
  | .compare _ _ slot => [slot]
  | .between _ _ low high => [low, high]
  | .membership _ _ slots => slots
  | .nullness _ _ => []

def map (f : σ → τ) : Condition σ → Condition τ
  | .raw text => .raw text
  | .compare column op slot => .compare column op (f slot)
  | .between column negated low high => .between column negated (f low) (f high)
  | .membership column negated slots => .membership column negated (slots.map f)
  | .nullness column negated => .nullness column negated

/-- The text of a raw condition, the column of any other. -/
def column : Condition σ → String
  | .raw text => text
  | .compare column _ _ => column
  | .between column _ _ _ => column
  | .membership column _ _ => column
  | .nullness column _ => column

@[simp]
theorem slots_map (f : σ → τ) (c : Condition σ) : (c.map f).slots = c.slots.map f := by
  cases c <;> rfl

end Condition

/-- A condition with the connective that joins it to the conditions before it. -/
structure Predicate (σ : Type) where
  connective : Connective
  condition : Condition σ
  deriving DecidableEq

namespace Predicate

def map (f : σ → τ) (p : Predicate σ) : Predicate τ := ⟨p.connective, p.condition.map f⟩

def slots (p : Predicate σ) : List σ := p.condition.slots

/-- The predicate with holes in its slots. -/
def withHoles (p : Predicate σ) : Predicate Hole := p.map fun _ => ()

def slotCount (p : Predicate σ) : Nat := p.slots.length

@[simp]
theorem slotCount_map (f : σ → τ) (p : Predicate σ) : (p.map f).slotCount = p.slotCount := by
  simp [slotCount, slots, map]

end Predicate

/-- What a recorded condition tests. -/
inductive Operator where
  /-- The text that stands for the column is a boolean expression, and nothing is bound. -/
  | raw
  | compare (op : Comparison)
  | between
  | notBetween
  | isIn
  | notIn
  | isNull
  | isNotNull
  deriving DecidableEq

/-- A condition as a query records it. -/
structure Filter where
  column : String
  operator : Operator
  /-- How many values were bound for the condition. -/
  arity : Nat
  connective : Connective
  deriving DecidableEq

namespace Filter

/-- The condition that a filter is written as: a list has as many slots as values were bound. -/
def condition (f : Filter) : Condition Hole :=
  match f.operator with
  | .raw => .raw f.column
  | .compare op => .compare f.column op ()
  | .between => .between f.column false () ()
  | .notBetween => .between f.column true () ()
  | .isIn => .membership f.column false (List.replicate f.arity ())
  | .notIn => .membership f.column true (List.replicate f.arity ())
  | .isNull => .nullness f.column false
  | .isNotNull => .nullness f.column true

def predicate (f : Filter) : Predicate Hole := ⟨f.connective, f.condition⟩

end Filter

end BoundSql
