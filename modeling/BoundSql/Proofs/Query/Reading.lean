import BoundSql.Proofs.Query.Command
import BoundSql.Proofs.Sql.Texts
import BoundSql.Query.Step
import Mathlib.Control.Monad.Basic

/-! What the text of a query is read as.  `Query.reading` is the tree of set operations that the
steps on a query built: its block and its members from left to right, each with the clauses that
trail it and no others.  `Query.derives_iff` shows that the grammar reads the text of the query as
this tree and as nothing else. -/

namespace BoundSql

open Sql

variable {α : Type}

namespace Query

/-- A block with the clauses that trail it, its first slot numbered `n`. -/
def blockReading (style : PlaceholderStyle) (n : Nat) (body : Body Hole) (tail : Tail) :
    QueryTree :=
  (QueryTree.block (lex (body.fragment.chars style n))).trail tail.clauses

mutual

/-- What a query whose first slot is numbered `n` is to be read as. -/
def reading (style : PlaceholderStyle) (n : Nat) : Query α → QueryTree
  | { block, tail, members := [], .. } => blockReading style n block.body tail
  | { block, tail, members := m :: rest, outer, .. } =>
    (readingFrom style (n + block.body.slots.length) (blockReading style n block.body tail)
      (m :: rest)).trail outer.clauses

/-- What members that are combined with all that stands to their left are to be read as. -/
def readingFrom (style : PlaceholderStyle) (n : Nat) (left : QueryTree) :
    List (SetOp × Query α) → QueryTree
  | [] => left
  | (op, q) :: rest =>
    readingFrom style (n + q.tree.slots.length) (.combined op left (q.reading style n)) rest

end

/-- The texts of a query, its members apart, that come from the caller. -/
def texts (q : Query α) : List String :=
  q.body.texts ++ q.tail.order.map SortKey.column ++ q.outer.order.map SortKey.column

section Texts

variable {q : Query α} (h : ∀ s ∈ q.texts, Atomic s)

include h

theorem atomic_body : ∀ s ∈ q.body.texts, Atomic s := fun s hs => h s (by simp [texts, hs])

theorem atomic_tail : ∀ k ∈ q.tail.order, Atomic k.column := fun k hk =>
  h k.column (by simp [texts, List.mem_map_of_mem hk])

theorem atomic_outer : ∀ k ∈ q.outer.order, Atomic k.column := fun k hk =>
  h k.column (by simp [texts, List.mem_map_of_mem hk])

end Texts

theorem lex_parenthesized (style : PlaceholderStyle) (n : Nat) (a : Fragment Hole) :
    lex (a.parenthesized.chars style n) = .left :: (lex (a.chars style n) ++ [.right]) := by
  have hopen : NoWordLast "(".toList := by decide
  have hclose : NoWordFirst ")".toList := by decide
  rw [Fragment.parenthesized, Fragment.append_assoc, Fragment.chars_append, Fragment.chars_append,
    Fragment.chars_text, Fragment.chars_text, lex_append (.inl hopen), lex_append (.inr hclose),
    Fragment.slots_text, List.length_nil, Nat.add_zero]
  rfl

section Derivations

variable {body : Body Hole} {tail : Tail}

theorem derives_block (style : PlaceholderStyle) (hbody : ∀ s ∈ body.texts, Atomic s)
    (htail : ∀ k ∈ tail.order, Atomic k.column) (n : Nat) :
    Derives .query (lex ((body.fragment ++ tail.fragment).chars style n))
      (blockReading style n body tail) := by
  obtain ⟨items, hlex, hitems⟩ := Body.exists_items style hbody n
  rw [Fragment.chars_append, lex_append (.inr (tail.noWordFirst_fragment style _)),
    tail.lex_fragment, blockReading, hlex]
  exact .query (.block hitems) .done (Tail.trailing_clauses htail)

/-- A block that other rows are combined with stands in parentheses unless nothing trails it. -/
theorem derives_operand_block (style : PlaceholderStyle) (hbody : ∀ s ∈ body.texts, Atomic s)
    (htail : ∀ k ∈ tail.order, Atomic k.column) (n : Nat) :
    Derives .operand
      (lex ((operand tail.isEmpty (body.fragment ++ tail.fragment)).chars style n))
      (blockReading style n body tail) := by
  cases hempty : tail.isEmpty with
  | true =>
    obtain ⟨items, hlex, hitems⟩ := Body.exists_items style hbody n
    simp only [Tail.isEmpty, Bool.and_eq_true, List.isEmpty_iff, beq_iff_eq] at hempty
    obtain ⟨⟨horder, hlimit⟩, hoffset⟩ := hempty
    have hfragment : (tail.fragment : Fragment Hole) = .empty := by
      simp [Tail.fragment, listClause, countClause, horder, hlimit, hoffset]
    have hclauses : tail.clauses = [] := by simp [Tail.clauses, horder, hlimit, hoffset]
    rw [operand, if_pos rfl, hfragment, Fragment.append_empty, blockReading, hclauses, hlex]
    exact .block hitems
  | false =>
    rw [operand, if_neg Bool.false_ne_true, lex_parenthesized]
    exact .parenthesized (derives_block style hbody htail n)

end Derivations

/-- A member stands in parentheses unless it is a block that nothing trails. -/
theorem derives_operand {style : PlaceholderStyle} {q : Query α} {n : Nat}
    (hatomic : ∀ s ∈ q.texts, Atomic s)
    (h : Derives .query (lex (q.tree.fragment.chars style n)) (q.reading style n)) :
    Derives .operand (lex ((operand q.tree.isBare q.tree.fragment).chars style n))
      (q.reading style n) := by
  obtain ⟨block, tail, members, outer, _, _, _, _, _, _, _⟩ := q
  cases members with
  | nil => exact derives_operand_block style (atomic_body hatomic) (atomic_tail hatomic) n
  | cons m rest =>
    rw [tree, Select.isBare, operand, if_neg Bool.false_ne_true, lex_parenthesized]
    exact .parenthesized h

theorem noWordFirst_memberFragments (style : PlaceholderStyle) (n : Nat)
    (members : List (SetOp × Select Hole)) :
    NoWordFirst ((Select.memberFragments members).chars style n) := by
  cases members with
  | nil => exact nofun
  | cons m rest =>
    obtain ⟨op, s⟩ := m
    have hseam : isSeam (" " ++ op.sql ++ " ").toList := by cases op <;> decide
    rw [Select.memberFragments, Fragment.append_assoc, Fragment.chars_append, Fragment.chars_text]
    exact noWordFirst_seam hseam _

theorem lex_setOp (op : SetOp) (cs : List Char) :
    lex ((" " ++ op.sql ++ " ").toList ++ cs) = op.tokens ++ lex cs := by
  have hlast : NoWordLast (" " ++ op.sql ++ " ").toList := by cases op <;> decide
  have htokens : lex (" " ++ op.sql ++ " ").toList = op.tokens := by cases op <;> decide
  rw [lex_append (.inl hlast), htokens]

mutual

theorem derives_reading (style : PlaceholderStyle) : (q : Query α) →
    (∀ m ∈ q.nodes, ∀ s ∈ m.texts, Atomic s) → (n : Nat) →
      Derives .query (lex (q.tree.fragment.chars style n)) (q.reading style n)
  | ⟨block, tail, [], outer, _, _, _, _, _, _, _⟩, h, n => by
    have hown := h _ (nodes_eq _ ▸ List.mem_cons_self)
    exact derives_block style (atomic_body hown) (atomic_tail hown) n
  | ⟨block, tail, m :: rest, outer, _, _, _, _, _, _, _⟩, h, n => by
    rw [nodes_eq] at h
    have hown := h _ List.mem_cons_self
    have hmembers := fun p hp => h p (List.mem_cons_of_mem _ hp)
    have hlead := derives_operand_block style (atomic_body hown) (atomic_tail hown) n
    have hmore := derives_readingFrom style (m :: rest) hmembers (n + block.body.slots.length)
      (blockReading style n block.body tail)
    have houter : Trailing outer.clauses := Tail.trailing_clauses (atomic_outer hown)
    have hfirst := fun k l => (noWordFirst_memberFragments style k (memberTrees (m :: rest))).append
      (outer.noWordFirst_fragment (σ := Hole) style l)
    rw [tree, Select.fragment, Fragment.append_assoc, Fragment.chars_append, Fragment.chars_append,
      lex_append (.inr (hfirst _ _)), lex_append (.inr (outer.noWordFirst_fragment style _)),
      outer.lex_fragment, slots_operand, Fragment.slots_append, Body.slots_fragment,
      Tail.slots_fragment, List.append_nil]
    exact .query hlead hmore houter

theorem derives_readingFrom (style : PlaceholderStyle) : (members : List (SetOp × Query α)) →
    (∀ m ∈ nodesIn members, ∀ s ∈ m.texts, Atomic s) → (n : Nat) → (left : QueryTree) →
      Derives (.more left)
        (lex ((Select.memberFragments (memberTrees members)).chars style n))
        (readingFrom style n left members)
  | [], _, _, _ => .done
  | (op, q) :: rest, h, n, left => by
    have hq := derives_reading style q (fun m hm => h m (by simp [nodesIn, hm])) n
    have hmore := derives_readingFrom style rest (fun m hm => h m (by simp [nodesIn, hm]))
      (n + q.tree.slots.length) (.combined op left (q.reading style n))
    have hoperand := derives_operand (h q (by simp [nodesIn, nodes_eq])) hq
    rw [memberTrees, Select.memberFragments, Fragment.append_assoc, Fragment.chars_append,
      Fragment.chars_text, lex_setOp, Fragment.chars_append,
      lex_append (.inr (noWordFirst_memberFragments style _ _)), slots_operand,
      Select.slots_fragment, Fragment.slots_text, List.length_nil, Nat.add_zero]
    exact .combined hoperand hmore

end

/-- The text of a SELECT is read as the tree that the query built, and as nothing else. -/
theorem derives_iff {q : Query α} {s : Statement α} (h : q.compile .select = .ok s)
    (hatomic : ∀ m ∈ q.nodes, ∀ t ∈ m.texts, Atomic t) (r : QueryTree) :
    Derives .query (lex s.sql.toList) r ↔ r = q.reading q.style 1 := by
  obtain ⟨_, c, hc, hfinish⟩ := compileWith_ok_iff.mp h
  obtain ⟨_, rfl⟩ := command_select_ok hc
  obtain ⟨_, rfl⟩ := finish_ok_iff.mp hfinish
  have hreading := derives_reading q.style q hatomic 1
  constructor
  · intro hr
    have hends : Nonterminal.Follows .query [] := nofun
    exact (hr.unique hreading hends hends rfl).2.1
  · rintro rfl
    exact hreading

/-- A block with clauses of its own, a member with a member of its own, and a plain block. -/
def nestedUnion : Query Value :=
  (ofTable "a").build
    [.orderBy ⟨"x", .asc⟩, .limit 3,
      .combine .unionAll [(ofTable "b").build [.combine .union [.ofTable "c"], .outerLimit 2]],
      .combine .union [.ofTable "d"], .outerOffset 1]

theorem derives_iff_nestedUnion :
    ∃ s, nestedUnion.compile .select = .ok s ∧
      s.sql = "(SELECT * FROM a ORDER BY x ASC LIMIT 3) UNION ALL (SELECT * FROM b UNION "
        ++ "SELECT * FROM c LIMIT 2) UNION SELECT * FROM d OFFSET 1" ∧
      ∀ r, Derives .query (lex s.sql.toList) r ↔ r = nestedUnion.reading .dollar 1 := by
  have h : nestedUnion.compile .select = .ok
      ⟨"(SELECT * FROM a ORDER BY x ASC LIMIT 3) UNION ALL (SELECT * FROM b UNION "
        ++ "SELECT * FROM c LIMIT 2) UNION SELECT * FROM d OFFSET 1", []⟩ := by
    decide +kernel
  exact ⟨_, h, rfl, derives_iff h (by decide +kernel)⟩

end Query

end BoundSql
