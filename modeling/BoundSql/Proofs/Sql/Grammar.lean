import BoundSql.Proofs.Sql.Tokens
import BoundSql.Sql.Command

/-! The syntax of queries.  UNION and UNION ALL have one precedence and combine from left to right,
a query in parentheses is one operand, and clauses that trail a set operation belong to all of it.
`Derives` is the grammar with what each part of a text is read as, and `Derives.unique` shows that
no text is read in two ways. -/

namespace BoundSql

/-- The keywords of a set operation. -/
def SetOp.tokens : SetOp → List Sql.Token
  | .union => [.union]
  | .unionAll => [.union, .word "ALL"]

theorem SetOp.exists_tokens (op : SetOp) : ∃ ts, op.tokens = .union :: ts := by
  cases op <;> exact ⟨_, rfl⟩

namespace Sql

/-- Tokens of a clause: plain ones, and groups of them in parentheses. -/
inductive Items : List Token → Prop
  | nil : Items []
  | plain {t : Token} {ts : List Token} (ht : t.isPlain) (h : Items ts) : Items (t :: ts)
  | group {inside ts : List Token} (hinside : Items inside) (h : Items ts) :
    Items (.left :: (inside ++ .right :: ts))

def ClauseKind.tokens : ClauseKind → List Token
  | .order => [.clause .order, .word "BY"]
  | .limit => [.clause .limit]
  | .offset => [.clause .offset]

structure Clause where
  kind : ClauseKind
  items : List Token
  deriving DecidableEq

def Clause.tokens (c : Clause) : List Token := c.kind.tokens ++ c.items

/-- Clauses that can trail a query: each kind at most once, and ORDER BY before the others. -/
structure Trailing (clauses : List Clause) : Prop where
  items : ∀ c ∈ clauses, Items c.items
  order : (clauses.map Clause.kind).Sublist [.order, .limit, .offset] ∨
    (clauses.map Clause.kind).Sublist [.order, .offset, .limit]

/-- What a query is read as. -/
inductive QueryTree where
  /-- A block, with all of its tokens. -/
  | block (tokens : List Token)
  | combined (op : SetOp) (left right : QueryTree)
  /-- A query that is ordered and cut as a whole. -/
  | trailed (query : QueryTree) (clauses : List Clause)

/-- A reading with the clauses that trail it, if there are any. -/
def QueryTree.trail (r : QueryTree) : List Clause → QueryTree
  | [] => r
  | c :: rest => .trailed r (c :: rest)

inductive Nonterminal where
  /-- What a set operation takes on one side. -/
  | operand
  /-- The set operations after a query that has been read so far. -/
  | more (left : QueryTree)
  | query

/-- The grammar of queries, with what each part is read as. -/
inductive Derives : Nonterminal → List Token → QueryTree → Prop
  | block {items : List Token} (h : Items items) :
    Derives .operand (.select :: items) (.block (.select :: items))
  | parenthesized {ts : List Token} {r : QueryTree} (h : Derives .query ts r) :
    Derives .operand (.left :: (ts ++ [.right])) r
  | done {left : QueryTree} : Derives (.more left) [] left
  /-- What has been read so far is the left operand, whatever the set operations in it. -/
  | combined {left right whole : QueryTree} {op : SetOp} {ts rest : List Token}
    (h : Derives .operand ts right) (hrest : Derives (.more (.combined op left right)) rest whole) :
    Derives (.more left) (op.tokens ++ (ts ++ rest)) whole
  /-- Clauses after the last operand trail all of the set operations. -/
  | query {first whole : QueryTree} {ts rest : List Token} {clauses : List Clause}
    (h : Derives .operand ts first) (hrest : Derives (.more first) rest whole)
    (hclauses : Trailing clauses) :
    Derives .query (ts ++ (rest ++ clauses.flatMap Clause.tokens)) (whole.trail clauses)

/-! ### Items -/

/-- Whether a clause can go on with a token. -/
def Token.continues (t : Token) : Bool := t.isPlain || t == .left

/-- No clause can go on with what follows. -/
def Stops (ts : List Token) : Prop := ∀ t ∈ ts.head?, t.continues = false

theorem Stops.cons {t : Token} (h : t.continues = false) (ts : List Token) : Stops (t :: ts) := by
  intro u hu
  cases hu
  exact h

theorem not_stops_plain {t : Token} (h : t.isPlain) (ts : List Token) : ¬ Stops (t :: ts) := by
  intro hstops
  have hcontinues := hstops t rfl
  rw [Token.continues, h] at hcontinues
  cases hcontinues

theorem not_stops_left (ts : List Token) : ¬ Stops (.left :: ts) := fun h => nomatch h _ rfl

theorem Items.append {a b : List Token} (ha : Items a) (hb : Items b) : Items (a ++ b) := by
  induction ha with
  | nil => exact hb
  | plain ht _ ih => exact .plain ht ih
  | group hinside _ _ ih =>
    rw [List.cons_append, List.append_assoc, List.cons_append]
    exact .group hinside ih

theorem Items.of_plain {ts : List Token} (h : ∀ t ∈ ts, t.isPlain) : Items ts := by
  induction ts with
  | nil => exact .nil
  | cons t ts ih => exact .plain (h t (by simp)) (ih fun u hu => h u (by simp [hu]))

/-- Where the tokens of a clause end is determined by what follows. -/
theorem Items.unique {a b x y : List Token} (ha : Items a) (hb : Items b) (hx : Stops x)
    (hy : Stops y) (h : a ++ x = b ++ y) : a = b ∧ x = y := by
  induction ha generalizing b x y with
  | nil =>
    subst h
    cases hb with
    | nil => exact ⟨rfl, rfl⟩
    | plain ht => exact absurd hx (not_stops_plain ht _)
    | group => exact absurd hx (not_stops_left _)
  | plain ht _ ih =>
    cases hb with
    | nil =>
      subst h
      exact absurd hy (not_stops_plain ht _)
    | plain _ hb =>
      obtain ⟨rfl, htail⟩ := List.cons.inj h
      obtain ⟨rfl, rfl⟩ := ih hb hx hy htail
      exact ⟨rfl, rfl⟩
    | group =>
      obtain ⟨rfl, _⟩ := List.cons.inj h
      cases ht
  | group hinside _ ihinside ih =>
    cases hb with
    | nil =>
      subst h
      exact absurd hy (not_stops_left _)
    | plain ht =>
      obtain ⟨rfl, _⟩ := List.cons.inj h
      cases ht
    | group hinside' hb =>
      simp only [List.cons_append, List.append_assoc, List.cons.injEq, true_and] at h
      obtain ⟨rfl, hrest⟩ := ihinside hinside' (.cons rfl _) (.cons rfl _) h
      obtain ⟨rfl, rfl⟩ := ih hb hx hy (List.cons.inj hrest).2
      exact ⟨rfl, rfl⟩

/-! ### Clauses -/

def Ends (ts : List Token) : Prop := ∀ t ∈ ts.head?, t = .right

theorem Ends.stops {ts : List Token} (h : Ends ts) : Stops ts := by
  intro t ht
  rw [h t ht]
  rfl

theorem Clause.exists_tokens (c : Clause) : ∃ ts, c.tokens = .clause c.kind :: ts := by
  obtain ⟨kind, items⟩ := c
  cases kind <;> exact ⟨_, rfl⟩

theorem Clause.stops (c : Clause) (ts : List Token) : Stops (c.tokens ++ ts) := by
  obtain ⟨rest, hrest⟩ := c.exists_tokens
  rw [hrest, List.cons_append]
  exact .cons rfl _

theorem stops_clauses (clauses : List Clause) {x : List Token} (hx : Stops x) :
    Stops (clauses.flatMap Clause.tokens ++ x) := by
  cases clauses with
  | nil => exact hx
  | cons c clauses =>
    rw [List.flatMap_cons, List.append_assoc]
    exact c.stops _

theorem Clause.not_ends (c : Clause) (ts : List Token) : ¬ Ends (c.tokens ++ ts) := by
  intro h
  obtain ⟨rest, hrest⟩ := c.exists_tokens
  rw [hrest] at h
  exact Token.noConfusion (h _ rfl)

theorem Clause.unique {c d : Clause} {x y : List Token} (hc : Items c.items) (hd : Items d.items)
    (hx : Stops x) (hy : Stops y) (h : c.tokens ++ x = d.tokens ++ y) : c = d ∧ x = y := by
  obtain ⟨kind, items⟩ := c
  obtain ⟨kind', items'⟩ := d
  have hkind : kind = kind' := by
    cases kind <;> cases kind' <;> first | rfl | cases h
  subst hkind
  simp only [tokens, List.append_assoc, List.append_cancel_left_eq] at h
  obtain ⟨rfl, rfl⟩ := hc.unique hd hx hy h
  exact ⟨rfl, rfl⟩

theorem clauses_unique {cs ds : List Clause} {x y : List Token} (hcs : ∀ c ∈ cs, Items c.items)
    (hds : ∀ c ∈ ds, Items c.items) (hx : Ends x) (hy : Ends y)
    (h : cs.flatMap Clause.tokens ++ x = ds.flatMap Clause.tokens ++ y) : cs = ds ∧ x = y := by
  induction cs generalizing ds with
  | nil =>
    cases ds with
    | nil => exact ⟨rfl, h⟩
    | cons d ds =>
      rw [List.flatMap_nil, List.nil_append, List.flatMap_cons, List.append_assoc] at h
      exact absurd (h ▸ hx) (d.not_ends _)
  | cons c cs ih =>
    cases ds with
    | nil =>
      rw [List.flatMap_nil, List.nil_append, List.flatMap_cons, List.append_assoc] at h
      exact absurd (h ▸ hy) (c.not_ends _)
    | cons d ds =>
      simp only [List.flatMap_cons, List.append_assoc] at h
      obtain ⟨rfl, hrest⟩ := Clause.unique (hcs c (by simp)) (hds d (by simp))
        (stops_clauses cs hx.stops) (stops_clauses ds hy.stops) h
      have hcs' : ∀ b ∈ cs, Items b.items := fun b hb => hcs b (by simp [hb])
      have hds' : ∀ b ∈ ds, Items b.items := fun b hb => hds b (by simp [hb])
      obtain ⟨rfl, rfl⟩ := ih hcs' hds' hrest
      exact ⟨rfl, rfl⟩

/-! ### Queries -/

/-- What can follow a part of a query. -/
def Nonterminal.Follows : Nonterminal → List Token → Prop
  | .operand, ts => Stops ts
  | .more _, ts => Stops ts ∧ ∀ t ∈ ts.head?, t ≠ .union
  | .query, ts => Ends ts

theorem not_follows_setOp (op : SetOp) (left : QueryTree) (ts : List Token) :
    ¬ Nonterminal.Follows (.more left) (op.tokens ++ ts) := by
  intro h
  obtain ⟨rest, hrest⟩ := op.exists_tokens
  rw [hrest] at h
  exact h.2 _ rfl rfl

/-- A clause in front of a set operation cannot go on. -/
theorem Derives.stops {left r : QueryTree} {ts x : List Token} (h : Derives (.more left) ts r)
    (hx : Stops x) : Stops (ts ++ x) := by
  cases h with
  | done => exact hx
  | @combined _ _ _ op =>
    obtain ⟨rest, hrest⟩ := op.exists_tokens
    rw [hrest, List.cons_append, List.cons_append]
    exact .cons rfl _

/-- Set operations end where clauses start or the query ends. -/
theorem follows_more (left : QueryTree) (clauses : List Clause) {x : List Token} (hx : Ends x) :
    Nonterminal.Follows (.more left) (clauses.flatMap Clause.tokens ++ x) := by
  refine ⟨stops_clauses clauses hx.stops, fun t ht => ?_⟩
  cases clauses with
  | nil =>
    rw [hx t ht]
    exact nofun
  | cons c clauses =>
    obtain ⟨rest, hrest⟩ := c.exists_tokens
    rw [List.flatMap_cons, hrest] at ht
    cases ht
    exact nofun

/-- The keywords of a set operation are told apart by what an operand starts with. -/
theorem setOp_unique {op op' : SetOp} {ts ts' x y : List Token} {r r' : QueryTree}
    (hts : Derives .operand ts r) (hts' : Derives .operand ts' r')
    (h : op.tokens ++ (ts ++ x) = op'.tokens ++ (ts' ++ y)) : op = op' ∧ ts ++ x = ts' ++ y := by
  cases op <;> cases op' <;> cases hts <;> cases hts' <;>
    simp only [SetOp.tokens, List.cons_append, List.nil_append, List.cons.injEq, reduceCtorEq,
      true_and, false_and] at h ⊢ <;> exact h

/-- No part of a text is read in two ways. -/
theorem Derives.unique {nt : Nonterminal} {ts ts' x y : List Token} {r r' : QueryTree}
    (h : Derives nt ts r) (h' : Derives nt ts' r') (hx : nt.Follows x) (hy : nt.Follows y)
    (heq : ts ++ x = ts' ++ y) : ts = ts' ∧ r = r' ∧ x = y := by
  induction h generalizing ts' r' x y with
  | block hitems =>
    cases h' with
    | block hitems' =>
      obtain ⟨rfl, rfl⟩ := hitems.unique hitems' hx hy (List.cons.inj heq).2
      exact ⟨rfl, rfl, rfl⟩
    | parenthesized => cases (List.cons.inj heq).1
  | parenthesized _ ih =>
    cases h' with
    | block => cases (List.cons.inj heq).1
    | parenthesized h' =>
      have hright : ∀ ts, Ends (.right :: ts) := fun ts t ht => by
        cases ht
        rfl
      simp only [List.cons_append, List.append_assoc, List.nil_append, List.cons.injEq,
        true_and] at heq
      obtain ⟨rfl, rfl, hrest⟩ := ih h' (hright _) (hright _) heq
      exact ⟨rfl, rfl, (List.cons.inj hrest).2⟩
  | done =>
    cases h' with
    | done => exact ⟨rfl, rfl, heq⟩
    | combined =>
      rw [List.nil_append, List.append_assoc] at heq
      exact absurd (heq ▸ hx) (not_follows_setOp _ _ _)
  | combined h hrest ih ihrest =>
    cases h' with
    | done =>
      rw [List.nil_append, List.append_assoc] at heq
      exact absurd (heq ▸ hy) (not_follows_setOp _ _ _)
    | combined h' hrest' =>
      simp only [List.append_assoc] at heq
      obtain ⟨rfl, hoperand⟩ := setOp_unique h h' heq
      obtain ⟨rfl, rfl, hmore⟩ := ih h' (hrest.stops hx.1) (hrest'.stops hy.1) hoperand
      obtain ⟨rfl, rfl, rfl⟩ := ihrest hrest' hx hy hmore
      exact ⟨rfl, rfl, rfl⟩
  | query h hrest hclauses ih ihrest =>
    cases h' with
    | query h' hrest' hclauses' =>
      simp only [List.append_assoc] at heq
      obtain ⟨rfl, rfl, hmore⟩ := ih h' (hrest.stops (stops_clauses _ hx.stops))
        (hrest'.stops (stops_clauses _ hy.stops)) heq
      obtain ⟨rfl, rfl, htrail⟩ := ihrest hrest' (follows_more _ _ hx) (follows_more _ _ hy) hmore
      obtain ⟨rfl, rfl⟩ := clauses_unique hclauses.items hclauses'.items hx hy htrail
      exact ⟨rfl, rfl, rfl⟩

end Sql

end BoundSql
