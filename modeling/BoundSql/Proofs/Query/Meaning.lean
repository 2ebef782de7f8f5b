import BoundSql.Proofs.Query.Binding
import BoundSql.Proofs.Query.Reading
import BoundSql.Proofs.Sql.Conditions
import BoundSql.Proofs.Sql.Rows

/-! What the text of a SELECT means.  A `TextDatabase` knows the rows of a block and the order of
rows by their tokens alone, and `QueryTree.rows` are the rows of a reading over it.  If it agrees
with a database about the blocks of a SELECT, then whatever the text of the SELECT is read as has
the rows of the SELECT (`Recipe.rows_of_text`); and a WHERE clause holds for the rows for which the
conditions hold that its text is read as (`Database.holds_of_text`). -/

namespace BoundSql

open Sql

variable {σ α ι ρ : Type}

/-- What the tokens of a query stand for. -/
structure TextDatabase (ρ : Type) where
  /-- The rows of a block. -/
  block : List Token → List ρ
  /-- Rows in the order of the items of ORDER BY, either those of a block or combined rows. -/
  sort : Option (List Token) → List Token → List ρ → List ρ

/-! ### Rows of a reading -/

namespace Sql

/-- The number that the items of LIMIT or OFFSET are. -/
def number? : List Token → Option Nat
  | [.word s] => Text.digitsOnly? s.toList
  | _ => none

/-- The items of the clause of a kind, if one trails. -/
def itemsOf (kind : ClauseKind) (clauses : List Clause) : Option (List Token) :=
  (clauses.find? fun c => c.kind = kind).map Clause.items

namespace QueryTree

/-- The tokens of a block by itself. -/
def block? : QueryTree → Option (List Token)
  | .block ts => some ts
  | _ => none

/-- The rows of a reading.  ORDER BY comes first, then OFFSET, then LIMIT, wherever they stand. -/
def rows [DecidableEq ρ] (db : TextDatabase ρ) : QueryTree → List ρ
  | .block ts => db.block ts
  | .combined op left right => op.combine (left.rows db) (right.rows db)
  | .trailed query clauses =>
    let ordered := (itemsOf .order clauses).elim (query.rows db) fun items =>
      db.sort query.block? items (query.rows db)
    let rest := ((itemsOf .offset clauses).bind number?).elim ordered ordered.drop
    ((itemsOf .limit clauses).bind number?).elim rest rest.take

end QueryTree

theorem lex_toString (n : Nat) : lex (toString n).toList = [.word (toString n)] := by
  have hdigits : ∀ c ∈ (toString n).toList, c.isDigit := fun c => Text.isDigit_of_mem_toString
  obtain ⟨c, cs, hs⟩ := List.exists_cons_of_ne_nil (Text.toList_toString_ne_nil n)
  rw [hs] at hdigits
  rw [hs, lex, lexFrom_of_inWord fun d hd => inWord_of_isDigit (hdigits d hd), List.nil_append,
    flush, if_neg (List.cons_ne_nil c cs),
    Token.ofWord_cons (toUpper_of_isDigit (hdigits c (by simp))), ← hs, String.ofList_toList]

theorem number?_toString (n : Nat) : number? (lex (toString n).toList) = some n := by
  rw [lex_toString]
  exact Text.digitsOnly?_toString n

end Sql

namespace Tail

theorem itemsOf_order (t : Tail) : itemsOf .order t.clauses =
    if t.order = [] then none else some (listTokens (t.order.map SortKey.text)) := by
  unfold clauses itemsOf
  split <;> split <;> split <;> simp

theorem itemsOf_limit (t : Tail) : (itemsOf .limit t.clauses).bind number? =
    if t.limit = 0 then none else some t.limit := by
  have hitems : itemsOf .limit t.clauses =
      if t.limit = 0 then none else some (lex (toString t.limit).toList) := by
    unfold clauses itemsOf
    split <;> split <;> split <;> simp
  rw [hitems]
  split
  · rfl
  · exact number?_toString t.limit

theorem itemsOf_offset (t : Tail) : (itemsOf .offset t.clauses).bind number? =
    if t.offset = 0 then none else some t.offset := by
  have hitems : itemsOf .offset t.clauses =
      if t.offset = 0 then none else some (lex (toString t.offset).toList) := by
    unfold clauses itemsOf
    split <;> split <;> split <;> simp
  rw [hitems]
  split
  · rfl
  · exact number?_toString t.offset

/-- The clauses that trail a query order and cut its rows as the tail does that they were written
from. -/
theorem rows_trail [DecidableEq ρ] (db : TextDatabase ρ) (t : Tail) (query : QueryTree) :
    (query.trail t.clauses).rows db =
      t.cut (if t.order = [] then query.rows db
        else db.sort query.block? (listTokens (t.order.map SortKey.text)) (query.rows db)) := by
  have htrailed : (query.trail t.clauses).rows db =
      (QueryTree.trailed query t.clauses).rows db := by
    cases hclauses : t.clauses with
    | nil => rfl
    | cons c rest => rfl
  have hordered : ∀ items : List Token, ((if t.order = [] then none else some items).elim
      (query.rows db) fun items => db.sort query.block? items (query.rows db)) =
        if t.order = [] then query.rows db else db.sort query.block? items (query.rows db) := by
    intro items
    split <;> rfl
  rw [htrailed, QueryTree.rows, itemsOf_order, itemsOf_limit, itemsOf_offset, cut, hordered]
  by_cases hlimit : t.limit = 0 <;> by_cases hoffset : t.offset = 0 <;> simp [hlimit, hoffset]

end Tail

/-! ### Blocks -/

namespace Select

mutual

/-- The blocks of a SELECT, each with the number of its first slot. -/
def blocks (n : Nat) : Select σ → List (Nat × Body σ)
  | .block body _ => [(n, body)]
  | .combined lead _ members _ => (n, lead) :: blocksFrom (n + lead.slots.length) members

/-- The blocks of members, one member after the other. -/
def blocksFrom (n : Nat) : List (SetOp × Select σ) → List (Nat × Body σ)
  | [] => []
  | (_, s) :: rest => s.blocks n ++ blocksFrom (n + s.slots.length) rest

end

theorem blocks_ofMembers (n : Nat) (body : Body σ) (tail outer : Tail)
    (members : List (SetOp × Select σ)) :
    (ofMembers body tail outer members).blocks n =
      (n, body) :: blocksFrom (n + body.slots.length) members := by
  cases members with
  | nil => rw [ofMembers, blocks, blocksFrom]
  | cons m rest => rw [ofMembers, blocks]

end Select

/-- A text database takes the blocks of a SELECT for what a database takes them for, and puts rows
into the same orders.  Where nothing orders rows, the database leaves them as they come. -/
structure TextDatabase.Agrees [DecidableEq ρ] (texts : TextDatabase ρ) (db : Database σ ι ρ)
    (style : PlaceholderStyle) (blocks : List (Nat × Body σ)) : Prop where
  rows : ∀ b ∈ blocks, texts.block (lex (b.2.fragment.chars style b.1)) = db.blockRows b.2
  order : ∀ b ∈ blocks, ∀ keys ≠ [], ∀ rows,
    texts.sort (some (lex (b.2.fragment.chars style b.1))) (listTokens (keys.map SortKey.text))
      rows = db.sort (some b.2) keys rows
  combined : ∀ keys ≠ [], ∀ rows,
    texts.sort none (listTokens (keys.map SortKey.text)) rows = db.sort none keys rows
  unordered : ∀ body rows, db.sort body [] rows = rows

section Rows

variable [DecidableEq ρ] {texts : TextDatabase ρ} {db : Database σ ι ρ} {style : PlaceholderStyle}

theorem TextDatabase.Agrees.mono {blocks blocks' : List (Nat × Body σ)}
    (h : texts.Agrees db style blocks) (hsub : blocks' ⊆ blocks) :
    texts.Agrees db style blocks' where
  rows b hb := h.rows b (hsub hb)
  order b hb := h.order b (hsub hb)
  combined := h.combined
  unordered := h.unordered

theorem TextDatabase.Agrees.rows_block {blocks : List (Nat × Body σ)}
    (h : texts.Agrees db style blocks) {n : Nat} {body : Body σ} (hbody : (n, body) ∈ blocks)
    (tail : Tail) :
    ((QueryTree.block (lex (body.fragment.chars style n))).trail tail.clauses).rows texts =
      tail.cut (db.sort (some body) tail.order (db.blockRows body)) := by
  have hrows : (QueryTree.block (lex (body.fragment.chars style n))).rows texts =
      db.blockRows body := by
    rw [QueryTree.rows]
    exact h.rows (n, body) hbody
  rw [Tail.rows_trail, hrows, QueryTree.block?]
  split
  · rename_i horder
    rw [horder, h.unordered]
  · rename_i horder
    rw [← h.order (n, body) hbody _ horder]

end Rows

/-! ### Readings of a query -/

namespace Query

theorem reading_eq (style : PlaceholderStyle) (n : Nat) (q : Query α) :
    q.reading style n =
      if q.members = [] then blockReading style n q.body q.tail
      else (readingFrom style (n + q.body.slots.length) (blockReading style n q.body q.tail)
        q.members).trail q.outer.clauses := by
  obtain ⟨block, tail, members, outer, _, _, _, _, _, _, _⟩ := q
  cases members with
  | nil => rw [reading, if_pos rfl, body]
  | cons m rest => rw [reading, if_neg (List.cons_ne_nil m rest), body]

/-- Set operations yield combined rows and no block. -/
theorem block?_readingFrom (style : PlaceholderStyle) (n : Nat) (left : QueryTree)
    {members : List (SetOp × Query α)} (h : members ≠ []) :
    (readingFrom style n left members).block? = none := by
  induction members generalizing n left with
  | nil => exact absurd rfl h
  | cons m rest ih =>
    obtain ⟨op, q⟩ := m
    rw [readingFrom]
    cases rest with
    | nil => rfl
    | cons m' rest' => exact ih _ _ (List.cons_ne_nil m' rest')

end Query

namespace Recipe

variable [HasNull α]

theorem length_slots_tree (r : Recipe α) : r.tree.slots.length = r.query.tree.slots.length := by
  rw [← tree_map, Select.slots_map, List.length_map]

theorem length_slots_body (r : Recipe α) :
    (r.query.body.withPredicates r.predicates).slots.length = r.query.body.slots.length := by
  have hbody := Body.withPredicates_map r.predicates_query
  conv_rhs => rw [← hbody, Body.slots_map, List.length_map]

theorem chars_body (r : Recipe α) (style : PlaceholderStyle) (n : Nat) :
    (r.query.body.withPredicates r.predicates).fragment.chars style n =
      r.query.body.fragment.chars style n := by
  have hbody := Body.withPredicates_map r.predicates_query
  conv_rhs => rw [← hbody, Body.fragment_map]
  exact (congrArg String.toList (renderFrom_map style _ n _)).symm

variable [DecidableEq ρ] {texts : TextDatabase ρ} {db : Database α ι ρ} {style : PlaceholderStyle}

/-- Members combine the rows on their left with their own, if what each is read as has its rows. -/
theorem rows_readingFrom {members : List (SetOp × Recipe α)}
    (h : ∀ m ∈ members, ∀ n, texts.Agrees db style (m.2.tree.blocks n) →
      (m.2.query.reading style n).rows texts = db.rows m.2.tree)
    (n : Nat) (left : QueryTree)
    (hagrees : texts.Agrees db style (Select.blocksFrom n (members.map fun m => (m.1, m.2.tree)))) :
    (Query.readingFrom style n left (members.map fun m => (m.1, m.2.query))).rows texts =
      db.combined (left.rows texts) (members.map fun m => (m.1, m.2.tree)) := by
  induction members generalizing n left with
  | nil => rfl
  | cons m rest ih =>
    obtain ⟨op, r⟩ := m
    rw [List.map_cons, Select.blocksFrom] at hagrees
    have hfirst := h _ List.mem_cons_self n (hagrees.mono (List.subset_append_left _ _))
    have hrest := ih (fun m hm => h m (List.mem_cons_of_mem _ hm)) (n + r.tree.slots.length)
      (.combined op left (r.query.reading style n)) (hagrees.mono (List.subset_append_right _ _))
    rw [List.map_cons, Query.readingFrom, ← length_slots_tree, hrest, QueryTree.rows, hfirst,
      List.map_cons, Database.combined]

/-- What the query of a recipe is read as has the rows of the SELECT of the recipe. -/
theorem rows_reading (r : Recipe α) (n : Nat) (h : texts.Agrees db style (r.tree.blocks n)) :
    (r.query.reading style n).rows texts = db.rows r.tree := by
  induction r using members_induction generalizing n with
  | h r ih =>
    rw [tree, memberTrees_eq, Select.blocks_ofMembers] at h
    have hlead := h.rows_block List.mem_cons_self r.query.tail
    have hmore := rows_readingFrom ih _ (Query.blockReading style n r.query.body r.query.tail)
      (h.mono (List.subset_cons_self _ _))
    rw [chars_body] at hlead
    rw [length_slots_body, ← members_query] at hmore
    rw [Query.reading_eq, tree, memberTrees_eq]
    cases hmembers : r.members with
    | nil =>
      rw [if_pos (by rw [members_query, hmembers, List.map_nil])]
      exact hlead
    | cons m rest =>
      have hne : r.query.members ≠ [] := by
        rw [members_query, hmembers]
        exact List.cons_ne_nil _ _
      rw [if_neg hne, Tail.rows_trail, Query.block?_readingFrom style _ _ hne, hmore, hmembers,
        List.map_cons, Select.ofMembers, Database.rows, Query.blockReading, hlead]
      congr 1
      split
      · rename_i horder
        rw [horder, h.unordered]
      · rename_i horder
        exact h.combined _ horder _

/-- Whatever tree the text of a SELECT is read as, it has the rows of the SELECT, with its blocks,
its members and the clauses that trail them. -/
theorem rows_of_text {r : Recipe α} {s : Statement α} (h : r.query.compile .select = .ok s)
    (hatomic : ∀ m ∈ r.query.nodes, ∀ t ∈ m.texts, Atomic t)
    (hagrees : texts.Agrees db r.query.style (r.tree.blocks 1)) {read : QueryTree}
    (hread : Derives .query (lex s.sql.toList) read) : read.rows texts = db.rows r.tree := by
  obtain ⟨_, c, hc, hfinish⟩ := Query.compileWith_ok_iff.mp h
  obtain ⟨_, rfl⟩ := Query.command_select_ok hc
  obtain ⟨_, rfl⟩ := Query.finish_ok_iff.mp hfinish
  have hends : Nonterminal.Follows .query [] := nofun
  obtain ⟨_, rfl, _⟩ :=
    hread.unique (Query.derives_reading r.query.style r.query hatomic 1) hends hends rfl
  exact r.rows_reading 1 hagrees

end Recipe

/-- A database that takes a chain of predicates group by group, all of one group or all of another,
takes it for what the text of the WHERE clause is read as. -/
theorem Database.holds_of_text (db : Database α ι ρ) (style : PlaceholderStyle) (n : Nat)
    {predicates : List (Predicate α)} (hne : predicates ≠ [])
    (hsingle : ∀ p ∈ predicates, p.condition.IsSingle) {test : Test → ι → Bool}
    (htest : ∀ row, db.holds predicates row =
      (Sql.groups (fun p => p.2.connective) (numberFrom n predicates)).any fun g =>
        g.all fun p => test (p.2.condition.readAs style p.1) row) :
    ∃ ts, scan ((whereClause predicates).chars style n) = some (.word "WHERE" :: ts) ∧
      ∀ row, db.holds predicates row = (readConditions ts).any fun g => g.all (test · row) := by
  obtain ⟨ts, hscan, hread⟩ := exists_readConditions style n hne hsingle
  refine ⟨ts, hscan, fun row => ?_⟩
  rw [htest, hread, List.any_map]
  simp only [Function.comp_def, List.all_map]

end BoundSql
