import BoundSql.Query.Basic

/-!
The public steps on a query, as data.  `apply` takes one step, `build` a sequence of them.
-/

namespace BoundSql

variable {α : Type}

/-- A step in building a query. -/
inductive Step (α : Type) where
  /-- Replaces the tables. -/
  | tables (names : List String)
  /-- Replaces the columns; no columns stand for all. -/
  | select (columns : List String)
  | distinct
  /-- Replaces the expressions of GROUP BY. -/
  | groupBy (groups : List String)
  | orderBy (key : SortKey)
  | limit (n : Nat)
  | offset (n : Nat)
  /-- Adds a sort key for the combined rows. -/
  | outerOrderBy (key : SortKey)
  | outerLimit (n : Nat)
  | outerOffset (n : Nat)
  /-- Replaces the columns whose collision is handled. -/
  | onConflict (columns : List String)
  | returning (columns : List String)
  | placeholder (style : Sql.PlaceholderStyle)
  | join (join : Join)
  | combine (op : SetOp) (members : List (Query α))
  | filter (predicate : Predicate α)
  /-- Adds a comparison whose operator is given as text. -/
  | filterText (connective : Connective) (column operator : String) (value : α)
  | rows (records : List (Record α))
  | assignments (record : Record α)
  /-- Attaches the values of an upsert and its assignments for colliding rows. -/
  | upsert (insert update : Record α)

namespace Step

/-! ### Conditions by name -/

def compare (connective : Connective) (op : Comparison) (column : String) (a : α) : Step α :=
  .filter ⟨connective, .compare column op a⟩

def range (connective : Connective) (negated : Bool) (column : String) (low high : α) : Step α :=
  .filter ⟨connective, .between column negated low high⟩

def membership (connective : Connective) (negated : Bool) (column : String) (values : List α) :
    Step α :=
  .filter ⟨connective, .membership column negated values⟩

def nullCheck (connective : Connective) (negated : Bool) (column : String) : Step α :=
  .filter ⟨connective, .nullness column negated⟩

def whereRaw (text : String) : Step α := .filter ⟨.and, .raw text⟩

def orWhereRaw (text : String) : Step α := .filter ⟨.or, .raw text⟩

def whereEq : String → α → Step α := compare .and .eq

def orWhereEq : String → α → Step α := compare .or .eq

def whereOp : String → String → α → Step α := filterText .and

def orWhereOp : String → String → α → Step α := filterText .or

def whereCmp (column : String) (op : Comparison) : α → Step α := compare .and op column

def orWhereCmp (column : String) (op : Comparison) : α → Step α := compare .or op column

def whereBetween : String → α → α → Step α := range .and false

def orWhereBetween : String → α → α → Step α := range .or false

def equal : String → α → Step α := compare .and .eq

def orEqual : String → α → Step α := compare .or .eq

def notEqual : String → α → Step α := compare .and .ne

def orNotEqual : String → α → Step α := compare .or .ne

def gt : String → α → Step α := compare .and .gt

def orGt : String → α → Step α := compare .or .gt

def gte : String → α → Step α := compare .and .ge

def orGte : String → α → Step α := compare .or .ge

def lt : String → α → Step α := compare .and .lt

def orLt : String → α → Step α := compare .or .lt

def lte : String → α → Step α := compare .and .le

def orLte : String → α → Step α := compare .or .le

def like : String → α → Step α := compare .and .like

def orLike : String → α → Step α := compare .or .like

def notLike : String → α → Step α := compare .and .notLike

def orNotLike : String → α → Step α := compare .or .notLike

def ilike : String → α → Step α := compare .and .ilike

def orIlike : String → α → Step α := compare .or .ilike

def notIlike : String → α → Step α := compare .and .notIlike

def orNotIlike : String → α → Step α := compare .or .notIlike

def between : String → α → α → Step α := range .and false

def orBetween : String → α → α → Step α := range .or false

def notBetween : String → α → α → Step α := range .and true

def orNotBetween : String → α → α → Step α := range .or true

def inList : String → List α → Step α := membership .and false

def orIn : String → List α → Step α := membership .or false

def notIn : String → List α → Step α := membership .and true

def orNotIn : String → List α → Step α := membership .or true

def isNull : String → Step α := nullCheck .and false

def orIsNull : String → Step α := nullCheck .or false

def isNotNull : String → Step α := nullCheck .and true

def orIsNotNull : String → Step α := nullCheck .or true

/-! ### Other steps by name -/

def orderByAsc (column : String) : Step α := .orderBy ⟨column, .asc⟩

def orderByDesc (column : String) : Step α := .orderBy ⟨column, .desc⟩

def skip : Nat → Step α := offset

def innerJoin (table on : String) : Step α := .join ⟨.inner, table, on⟩

def leftJoin (table on : String) : Step α := .join ⟨.left, table, on⟩

def rightJoin (table on : String) : Step α := .join ⟨.right, table, on⟩

def union : List (Query α) → Step α := combine .union

def unionAll : List (Query α) → Step α := combine .unionAll

end Step

/-- The query after a step. -/
def Query.apply [HasNull α] (q : Query α) : Step α → Query α
  | .tables names => { q with block := { q.block with tables := names } }
  | .select columns => { q with block := { q.block with columns } }
  | .distinct => { q with block := { q.block with distinct := true } }
  | .groupBy groups => { q with block := { q.block with groups } }
  | .orderBy key => { q with tail := { q.tail with order := q.tail.order ++ [key] } }
  | .limit n => { q with tail := { q.tail with limit := n } }
  | .offset n => { q with tail := { q.tail with offset := n } }
  | .outerOrderBy key => { q with outer := { q.outer with order := q.outer.order ++ [key] } }
  | .outerLimit n => { q with outer := { q.outer with limit := n } }
  | .outerOffset n => { q with outer := { q.outer with offset := n } }
  | .onConflict columns => { q with conflictTarget := columns }
  | .returning columns => { q with returning := columns }
  | .placeholder style => { q with style }
  | .join j => { q with block := { q.block with joins := q.block.joins ++ [j] } }
  | .combine op members => q.combine op members
  | .filter p => q.filter p
  | .filterText connective column operator a => q.filterText connective column operator a
  | .rows records => q.carry (Payload.ofRows records)
  | .assignments record => q.carry (Payload.ofAssignments record)
  | .upsert insert update => q.carry (Payload.ofUpsert insert update)

/-- The query after a sequence of steps. -/
def Query.build [HasNull α] (q : Query α) (steps : List (Step α)) : Query α :=
  steps.foldl Query.apply q

end BoundSql
