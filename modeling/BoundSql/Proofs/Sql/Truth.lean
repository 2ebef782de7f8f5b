import BoundSql.Proofs.Sql.Lexemes
import Mathlib.Data.List.SplitBy
import Mathlib.Order.BoundedOrder.Lattice

/-! The truth of a condition.  A condition is cut into operands at the connectives outside groups,
where NOT binds tighter than AND and AND tighter than OR, and what no connective cuts is an atomic
condition, to which any truth value can be given.  Truth values are the elements of any bounded
lattice with an operation for NOT, so the truth can be two- or three-valued. -/

namespace BoundSql

open Sql

def Connective.lexeme : Connective → Lexeme
  | .and => .word "AND"
  | .or => .word "OR"

namespace Sql

/-- The lexemes that open a group. -/
def opening : List Lexeme := [.sign '(', .sign '[', .word "CASE"]

/-- The lexemes that close a group. -/
def closing : List Lexeme := [.sign ')', .sign ']', .word "END"]

/-- What is open after a part of a condition. -/
structure Nesting where
  depth : Nat := 0
  /-- Whether a BETWEEN outside all groups waits for its AND. -/
  range : Bool := false
  deriving DecidableEq

namespace Nesting

def next (s : Nesting) (t : Lexeme) : Nesting :=
  if t ∈ opening then { s with depth := s.depth + 1 }
  else if t ∈ closing then { s with depth := s.depth - 1 }
  else if s.depth = 0 ∧ t = .word "BETWEEN" then { s with range := true }
  else if s.depth = 0 ∧ t = .word "AND" then { s with range := false }
  else s

/-- The connective that a lexeme is: an OR outside all groups, or an AND there for which no
BETWEEN waits. -/
def connective? (s : Nesting) (t : Lexeme) : Option Connective :=
  if s.depth = 0 ∧ t = .word "OR" then some .or
  else if s = {} ∧ t = .word "AND" then some .and
  else none

theorem next_lexeme (c : Connective) : next {} c.lexeme = {} := by
  cases c <;> decide

theorem connective?_lexeme (c : Connective) : connective? {} c.lexeme = some c := by
  cases c <;> decide

end Nesting

/-- Operands with connectives between them. -/
structure Chain (α : Type) where
  first : α
  rest : List (Connective × α)
  deriving DecidableEq

/-- The operands of a condition and the connectives between them. -/
def cut (s : Nesting) : List Lexeme → Chain (List Lexeme)
  | [] => ⟨[], []⟩
  | t :: ts =>
    let after := cut (s.next t) ts
    match s.connective? t with
    | some c => ⟨[], (c, after.first) :: after.rest⟩
    | none => ⟨t :: after.first, after.rest⟩

/-- The connectives of a condition. -/
def connectives (s : Nesting) : List Lexeme → List Connective
  | [] => []
  | t :: ts => (s.connective? t).toList ++ connectives (s.next t) ts

/-- Nothing is open at the end. -/
def Complete (ts : List Lexeme) : Prop := ts.foldl Nesting.next {} = {}

/-- No OR stands outside all groups. -/
def Conjunctive (ts : List Lexeme) : Prop := .or ∉ connectives {} ts

instance (ts : List Lexeme) : Decidable (Complete ts) := inferInstanceAs (Decidable (_ = _))

instance (ts : List Lexeme) : Decidable (Conjunctive ts) := inferInstanceAs (Decidable (¬ _))

theorem connectives_append (s : Nesting) (ts us : List Lexeme) :
    connectives s (ts ++ us) = connectives s ts ++ connectives (ts.foldl Nesting.next s) us := by
  induction ts generalizing s with
  | nil => rfl
  | cons t ts ih =>
    rw [List.cons_append, connectives, connectives, ih, List.foldl_cons, List.append_assoc]

theorem connectives_eq (s : Nesting) (ts : List Lexeme) :
    connectives s ts = (cut s ts).rest.map Prod.fst := by
  induction ts generalizing s with
  | nil => rfl
  | cons t ts ih =>
    rw [connectives, cut, ih]
    cases s.connective? t <;> rfl

theorem cut_eq_of_connectives {s : Nesting} {ts : List Lexeme} (h : connectives s ts = []) :
    cut s ts = ⟨ts, []⟩ := by
  induction ts generalizing s with
  | nil => rfl
  | cons t ts ih =>
    obtain ⟨ht, hts⟩ := List.append_eq_nil_iff.mp h
    rw [cut, ih hts, Option.toList_eq_nil_iff.mp ht]

/-- The lexemes that play a part in how a condition is cut. -/
def structural : List Lexeme :=
  opening ++ closing ++ [.word "BETWEEN", .word "AND", .word "OR"]

theorem next_of_not_mem {t : Lexeme} (h : t ∉ structural) (s : Nesting) : s.next t = s := by
  simp only [structural, List.mem_append, not_or, List.mem_cons, List.not_mem_nil] at h
  simp [Nesting.next, h]

theorem connective?_of_not_mem {t : Lexeme} (h : t ∉ structural) (s : Nesting) :
    s.connective? t = none := by
  simp only [structural, List.mem_append, not_or, List.mem_cons, List.not_mem_nil] at h
  simp [Nesting.connective?, h]

theorem foldl_next {ts : List Lexeme} (h : ∀ t ∈ ts, t ∉ structural) (s : Nesting) :
    ts.foldl Nesting.next s = s := by
  induction ts with
  | nil => rfl
  | cons t ts ih =>
    rw [List.foldl_cons, next_of_not_mem (h t (by simp)), ih fun u hu => h u (by simp [hu])]

theorem connectives_eq_nil {ts : List Lexeme} (h : ∀ t ∈ ts, t ∉ structural) (s : Nesting) :
    connectives s ts = [] := by
  induction ts with
  | nil => rfl
  | cons t ts ih =>
    have ht := h t (by simp)
    rw [connectives, connective?_of_not_mem ht, next_of_not_mem ht,
      ih fun u hu => h u (by simp [hu])]
    rfl

theorem mark_not_mem (style : PlaceholderStyle) (n : Nat) : .mark style n ∉ structural := by
  cases style with
  | question => exact (by decide : Lexeme.sign '?' ∉ structural)
  | dollar =>
    have hfirst : ∀ t ∈ structural, ∀ s, t = .word s → s.toList.head? ≠ some '$' := by
      simp [structural, opening, closing]
    exact fun h => hfirst _ h _ rfl (by simp)

/-- Lexemes that close what they open and hold no connective outside groups. -/
structure Neutral (ts : List Lexeme) : Prop where
  complete : Complete ts
  connectives : connectives {} ts = []

theorem Neutral.of_not_mem {ts : List Lexeme} (h : ∀ t ∈ ts, t ∉ structural) : Neutral ts :=
  ⟨foldl_next h {}, connectives_eq_nil h {}⟩

theorem Complete.append_neutral {ts us : List Lexeme} (hts : Complete ts) (hus : Neutral us) :
    Complete (ts ++ us) := by
  rw [Complete, List.foldl_append, hts]
  exact hus.complete

theorem Conjunctive.append_neutral {ts us : List Lexeme} (hts : Conjunctive ts)
    (hcomplete : Complete ts) (hus : Neutral us) : Conjunctive (ts ++ us) := by
  rw [Conjunctive, connectives_append, hcomplete, hus.connectives, List.append_nil]
  exact hts

theorem Neutral.append {ts us : List Lexeme} (hts : Neutral ts) (hus : Neutral us) :
    Neutral (ts ++ us) := by
  refine ⟨hts.complete.append_neutral hus, ?_⟩
  rw [connectives_append, hts.connectives, hts.complete, hus.connectives]
  rfl

/-- What stands in parentheses plays no part outside of them. -/
theorem Neutral.group {ts : List Lexeme} (h : ∀ t ∈ ts, t ∉ structural) :
    Neutral (.sign '(' :: (ts ++ [.sign ')'])) := by
  have hopen : Nesting.next {} (.sign '(') = ⟨1, false⟩ := by decide
  constructor
  · rw [Complete, List.foldl_cons, hopen, List.foldl_append, foldl_next h]
    decide
  · rw [Sql.connectives, hopen, connectives_append, connectives_eq_nil h, foldl_next h]
    decide

/-- The AND of a BETWEEN is no connective. -/
theorem Neutral.between {low high : Lexeme} (hlow : low ∉ structural) (hhigh : high ∉ structural) :
    Neutral [.word "BETWEEN", low, .word "AND", high] := by
  have hbetween : Nesting.next {} (.word "BETWEEN") = ⟨0, true⟩ := by decide
  have hand : Nesting.next ⟨0, true⟩ (.word "AND") = {} := by decide
  constructor
  · simp only [Complete, List.foldl_cons, List.foldl_nil, hbetween, hand, next_of_not_mem hlow,
      next_of_not_mem hhigh]
  · simp only [Sql.connectives, hbetween, hand, next_of_not_mem hlow,
      connective?_of_not_mem hlow, connective?_of_not_mem hhigh]
    decide

/-- A condition is cut at a connective after a complete one. -/
theorem cut_connective {s : Nesting} {ts : List Lexeme} (h : ts.foldl Nesting.next s = {})
    (c : Connective) (us : List Lexeme) :
    cut s (ts ++ c.lexeme :: us) =
      ⟨(cut s ts).first, (cut s ts).rest ++ (c, (cut {} us).first) :: (cut {} us).rest⟩ := by
  induction ts generalizing s with
  | nil =>
    cases (h : s = {})
    simp only [List.nil_append, cut, Nesting.connective?_lexeme, Nesting.next_lexeme]
  | cons t ts ih =>
    rw [List.cons_append, cut, cut, ih h]
    cases s.connective? t <;> rfl

theorem length_cut (s : Nesting) (ts : List Lexeme) :
    (cut s ts).first.length ≤ ts.length ∧
      ∀ o ∈ (cut s ts).rest, o.2.length ≤ ts.length := by
  induction ts generalizing s with
  | nil => exact ⟨Nat.le_refl _, fun o ho => nomatch ho⟩
  | cons t ts ih =>
    obtain ⟨hfirst, hrest⟩ := ih (s.next t)
    have hmore : ∀ o ∈ (cut (s.next t) ts).rest, o.2.length ≤ (t :: ts).length := fun o ho =>
      (hrest o ho).trans (Nat.le_succ _)
    rw [cut]
    cases s.connective? t with
    | some c =>
      exact ⟨Nat.zero_le _, List.forall_mem_cons.mpr ⟨hfirst.trans (Nat.le_succ _), hmore⟩⟩
    | none => exact ⟨Nat.succ_le_succ hfirst, hmore⟩

/-- What stands before the parenthesis that closes a group, if it is the last lexeme. -/
def closed? (s : Nesting) : List Lexeme → Option (List Lexeme)
  | [] => none
  | t :: ts =>
    if s.depth = 0 ∧ t ∈ closing then if ts = [] then some [] else none
    else (closed? (s.next t) ts).map (t :: ·)

/-- The words that make a group in parentheses a query. -/
def queryWords : List Lexeme := ["SELECT", "WITH", "VALUES", "TABLE"].map .word

/-- The condition that an operand in parentheses is. -/
def inside? : List Lexeme → Option (List Lexeme)
  | [] => none
  | t :: ts =>
    if t = .sign '(' then
      (closed? {} ts).filter fun inside => !inside.head?.any (· ∈ queryWords)
    else none

theorem length_closed? {s : Nesting} {ts inside : List Lexeme} (h : closed? s ts = some inside) :
    inside.length < ts.length := by
  induction ts generalizing s inside with
  | nil => cases h
  | cons t ts ih =>
    rw [closed?] at h
    split at h
    · split at h
      · cases h
        exact Nat.succ_pos _
      · cases h
    · obtain ⟨rest, hrest, rfl⟩ := Option.map_eq_some_iff.mp h
      exact Nat.succ_lt_succ (ih hrest)

theorem length_inside? {ts inside : List Lexeme} (h : inside? ts = some inside) :
    inside.length < ts.length := by
  cases ts with
  | nil => cases h
  | cons t ts =>
    rw [inside?] at h
    split at h
    · exact (length_closed? (Option.filter_eq_some_iff.mp h).1).trans (Nat.lt_succ_self _)
    · cases h

section Truth

variable {V : Type} [Lattice V]

/-- The truth of operands with connectives between them, the first of them known so far. -/
def valueFrom (known : V) : List (Connective × V) → V
  | [] => known
  | (.and, x) :: rest => valueFrom (known ⊓ x) rest
  | (.or, x) :: rest => known ⊔ valueFrom x rest

mutual

/-- The truth of a condition when `v` gives the truth of atomic conditions. -/
def truth (neg : V → V) (v : List Lexeme → V) (ts : List Lexeme) : V :=
  valueFrom (operandTruth neg v (cut {} ts).first)
    ((cut {} ts).rest.attach.map fun o => (o.1.1, operandTruth neg v o.1.2))
termination_by (ts.length, 1)
decreasing_by
  · exact Prod.Lex.right' _ (length_cut {} ts).1 Nat.one_pos
  · exact Prod.Lex.right' _ ((length_cut {} ts).2 o.1 o.2) Nat.one_pos

/-- The truth of an operand. -/
def operandTruth (neg : V → V) (v : List Lexeme → V) (ts : List Lexeme) : V :=
  match ts with
  | [] => v []
  | t :: rest =>
    if t = .word "NOT" then neg (operandTruth neg v rest)
    else
      match _h : inside? (t :: rest) with
      | some inside => truth neg v inside
      | none => v (t :: rest)
termination_by (ts.length, 0)
decreasing_by
  · exact Prod.Lex.left _ _ (Nat.lt_succ_self _)
  · exact Prod.Lex.left _ _ (length_inside? _h)

end

theorem truth_eq (neg : V → V) (v : List Lexeme → V) (ts : List Lexeme) :
    truth neg v ts = valueFrom (operandTruth neg v (cut {} ts).first)
      ((cut {} ts).rest.map fun o => (o.1, operandTruth neg v o.2)) := by
  rw [truth]
  exact congrArg (valueFrom _)
    (List.attach_map_val (f := fun o : Connective × List Lexeme => (o.1, operandTruth neg v o.2)))

theorem operandTruth_not (neg : V → V) (v : List Lexeme → V) (ts : List Lexeme) :
    operandTruth neg v (.word "NOT" :: ts) = neg (operandTruth neg v ts) := by
  rw [operandTruth, if_pos rfl]

theorem operandTruth_inside {ts inside : List Lexeme} (h : inside? ts = some inside)
    (neg : V → V) (v : List Lexeme → V) : operandTruth neg v ts = truth neg v inside := by
  cases ts with
  | nil => cases h
  | cons t ts =>
    have hnot : t ≠ .word "NOT" := by
      rintro rfl
      cases h
    rw [operandTruth, if_neg hnot]
    split
    · rename_i heq
      cases h.symm.trans heq
      rfl
    · rename_i heq
      cases h.symm.trans heq

/-- An operand that is neither negated nor in parentheses is an atomic condition. -/
theorem operandTruth_atomic {ts : List Lexeme} (hnot : ts.head? ≠ some (.word "NOT"))
    (hinside : inside? ts = none) (neg : V → V) (v : List Lexeme → V) :
    operandTruth neg v ts = v ts := by
  cases ts with
  | nil => rw [operandTruth]
  | cons t ts =>
    rw [operandTruth, if_neg fun h => hnot (congrArg some h)]
    split
    · rename_i heq
      cases hinside.symm.trans heq
    · rfl

/-- A condition without connectives is a single operand. -/
theorem truth_operand {ts : List Lexeme} (h : connectives {} ts = []) (neg : V → V)
    (v : List Lexeme → V) : truth neg v ts = operandTruth neg v ts := by
  rw [truth_eq, cut_eq_of_connectives h]
  rfl

theorem truth_atomic {ts : List Lexeme} (h : connectives {} ts = [])
    (hnot : ts.head? ≠ some (.word "NOT")) (hinside : inside? ts = none) (neg : V → V)
    (v : List Lexeme → V) : truth neg v ts = v ts :=
  (truth_operand h neg v).trans (operandTruth_atomic hnot hinside neg v)

theorem valueFrom_append_or (known x : V) (rest more : List (Connective × V)) :
    valueFrom known (rest ++ (.or, x) :: more) = valueFrom known rest ⊔ valueFrom x more := by
  induction rest generalizing known with
  | nil => rfl
  | cons o rest ih =>
    obtain ⟨c, y⟩ := o
    cases c with
    | and => exact ih _
    | or => rw [List.cons_append, valueFrom, valueFrom, ih, sup_assoc]

theorem valueFrom_inf (known x : V) {rest : List (Connective × V)}
    (h : .or ∉ rest.map Prod.fst) : valueFrom (known ⊓ x) rest = known ⊓ valueFrom x rest := by
  induction rest generalizing x with
  | nil => rfl
  | cons o rest ih =>
    obtain ⟨c, y⟩ := o
    rw [List.map_cons, List.mem_cons, not_or] at h
    cases c with
    | and => rw [valueFrom, valueFrom, inf_assoc, ih _ h.2]
    | or => exact absurd rfl h.1

theorem valueFrom_append_and (known x : V) {rest more : List (Connective × V)}
    (hrest : .or ∉ rest.map Prod.fst) (hmore : .or ∉ more.map Prod.fst) :
    valueFrom known (rest ++ (.and, x) :: more) = valueFrom known rest ⊓ valueFrom x more := by
  induction rest generalizing known with
  | nil => exact valueFrom_inf known x hmore
  | cons o rest ih =>
    obtain ⟨c, y⟩ := o
    rw [List.map_cons, List.mem_cons, not_or] at hrest
    cases c with
    | and => exact ih _ hrest.2
    | or => exact absurd rfl hrest.1

theorem truth_or {ts : List Lexeme} (h : Complete ts) (us : List Lexeme) (neg : V → V)
    (v : List Lexeme → V) :
    truth neg v (ts ++ Connective.or.lexeme :: us) = truth neg v ts ⊔ truth neg v us := by
  rw [truth_eq, cut_connective h, List.map_append, List.map_cons, valueFrom_append_or, truth_eq,
    truth_eq]

theorem truth_and {ts us : List Lexeme} (h : Complete ts) (hts : Conjunctive ts)
    (hus : Conjunctive us) (neg : V → V) (v : List Lexeme → V) :
    truth neg v (ts ++ Connective.and.lexeme :: us) = truth neg v ts ⊓ truth neg v us := by
  have hor : ∀ ws : List Lexeme, Conjunctive ws →
      .or ∉ ((cut {} ws).rest.map fun o => (o.1, operandTruth neg v o.2)).map Prod.fst :=
    fun ws hws => by
      rw [List.map_map]
      exact connectives_eq {} ws ▸ hws
  rw [truth_eq, cut_connective h, List.map_append, List.map_cons,
    valueFrom_append_and _ _ (hor ts hts) (hor us hus), truth_eq, truth_eq]

end Truth

/-! ### Chains of complete conditions -/

section Joined

variable {α : Type} (connective : α → Connective) (text : α → List Lexeme)

/-- Conditions with their connectives in front of them, except for the first one's. -/
def joined : List α → List Lexeme
  | [] => []
  | [a] => text a
  | a :: b :: rest => text a ++ (connective b).lexeme :: joined (b :: rest)

/-- A chain of conditions, cut before each one that OR joins to those before it. -/
def groups (as : List α) : List (List α) := as.splitBy fun _ b => connective b == .and

variable {connective text}

theorem groups_map {β : Type} (f : β → α) (bs : List β) :
    groups connective (bs.map f) = (groups (fun b => connective (f b)) bs).map (List.map f) := by
  have hgroups : ∀ g ∈ groups (fun b => connective (f b)) bs, g ≠ [] ∧
      g.IsChain fun _ b => connective (f b) == .and := fun g hg =>
    ⟨List.ne_nil_of_mem_splitBy hg, List.isChain_of_mem_splitBy hg⟩
  refine List.splitBy_eq_iff.mpr ⟨?_, ?_, ?_, ?_⟩
  · rw [← List.map_flatten]
    exact congrArg (List.map f) (List.flatten_splitBy _ bs).symm
  · simpa using fun hnil => (hgroups [] hnil).1 rfl
  · refine List.forall_mem_map.mpr fun g hg => ?_
    exact (List.isChain_map f).mpr (hgroups g hg).2
  · refine (List.isChain_map _).mpr ((List.isChain_getLast_head_splitBy _ bs).imp ?_)
    rintro g h ⟨hg, hh, hseam⟩
    exact ⟨by simpa using hg, by simpa using hh, by simpa using hseam⟩

theorem Complete.append {ts us : List Lexeme} (hts : Complete ts) (c : Connective)
    (hus : Complete us) : Complete (ts ++ c.lexeme :: us) := by
  rw [Complete, List.foldl_append, hts, List.foldl_cons, Nesting.next_lexeme]
  exact hus

theorem Complete.joined {as : List α} (h : ∀ a ∈ as, Complete (text a)) :
    Complete (joined connective text as) := by
  fun_induction Sql.joined connective text as with
  | case1 => rfl
  | case2 a => exact h a (by simp)
  | case3 a b rest ih => exact (h a (by simp)).append _ (ih fun c hc => h c (by simp [hc]))

theorem joined_append_cons {as : List α} (has : as ≠ []) (b : α) (bs : List α) :
    joined connective text (as ++ b :: bs) =
      joined connective text as ++ (connective b).lexeme :: joined connective text (b :: bs) := by
  fun_induction Sql.joined connective text as with
  | case1 => exact absurd rfl has
  | case2 a => rfl
  | case3 a c rest ih =>
    have hrest := ih (List.cons_ne_nil _ _)
    rw [List.cons_append, List.cons_append, joined, ← List.cons_append, hrest]
    simp

theorem Conjunctive.append {ts us : List Lexeme} (hcomplete : Complete ts) (hts : Conjunctive ts)
    (hus : Conjunctive us) : Conjunctive (ts ++ Connective.and.lexeme :: us) := by
  rw [Conjunctive, connectives_append, hcomplete, connectives, Nesting.connective?_lexeme,
    Nesting.next_lexeme]
  rw [Conjunctive] at hts hus
  simp [hts, hus]

theorem Conjunctive.joined {as : List α} (hand : as.IsChain fun _ b => connective b = .and)
    (hcomplete : ∀ a ∈ as, Complete (text a)) (h : ∀ a ∈ as, Conjunctive (text a)) :
    Conjunctive (joined connective text as) := by
  fun_induction Sql.joined connective text as with
  | case1 => exact List.not_mem_nil
  | case2 a => exact h a (by simp)
  | case3 a b rest ih =>
    obtain ⟨hb, hrest⟩ := List.isChain_cons_cons.mp hand
    have hmore := ih hrest (fun c hc => hcomplete c (by simp [hc])) fun c hc => h c (by simp [hc])
    exact hb ▸ .append (hcomplete a (by simp)) (h a (by simp)) hmore

variable {V : Type} [Lattice V] [BoundedOrder V] (neg : V → V) (v : List Lexeme → V)

/-- Conditions that AND joins, none with an OR outside its groups, are as true as their
conjunction. -/
theorem truth_conjunction {as : List α} (has : as ≠ [])
    (hand : as.IsChain fun _ b => connective b = .and) (hcomplete : ∀ a ∈ as, Complete (text a))
    (h : ∀ a ∈ as, Conjunctive (text a)) :
    truth neg v (joined connective text as) =
      (as.map fun a => truth neg v (text a)).foldr (· ⊓ ·) ⊤ := by
  fun_induction Sql.joined connective text as with
  | case1 => exact absurd rfl has
  | case2 a => simp
  | case3 a b rest ih =>
    obtain ⟨hb, hrest⟩ := List.isChain_cons_cons.mp hand
    have hcomplete' : ∀ c ∈ b :: rest, Complete (text c) := fun c hc =>
      hcomplete c (List.mem_cons_of_mem a hc)
    have h' : ∀ c ∈ b :: rest, Conjunctive (text c) := fun c hc => h c (List.mem_cons_of_mem a hc)
    rw [hb, truth_and (hcomplete a (by simp)) (h a (by simp)) (.joined hrest hcomplete' h'),
      ih (List.cons_ne_nil _ _) hrest hcomplete' h']
    rfl

/-- Runs of conditions, each but the first one started by an OR, are as true as their
disjunction. -/
theorem truth_disjunction {gs : List (List α)} (hgs : gs ≠ []) (hne : [] ∉ gs)
    (hor : gs.IsChain fun _ h => ∀ b ∈ h.head?, connective b = .or)
    (hcomplete : ∀ g ∈ gs, ∀ a ∈ g, Complete (text a)) :
    truth neg v (joined connective text gs.flatten) =
      (gs.map fun g => truth neg v (joined connective text g)).foldr (· ⊔ ·) ⊥ := by
  induction gs with
  | nil => exact absurd rfl hgs
  | cons g gs ih =>
    have hg : g ≠ [] := fun h => hne (h ▸ List.mem_cons_self)
    cases gs with
    | nil => simp
    | cons h gs =>
      obtain ⟨hhead, hrest⟩ := List.isChain_cons_cons.mp hor
      have hmore := ih (List.cons_ne_nil _ _) (fun hmem => hne (List.mem_cons_of_mem _ hmem)) hrest
        fun g hg => hcomplete g (List.mem_cons_of_mem _ hg)
      cases h with
      | nil => exact absurd (by simp) hne
      | cons b h =>
        have hflatten : (g :: (b :: h) :: gs).flatten = g ++ b :: (h ++ gs.flatten) := by simp
        rw [hflatten, joined_append_cons hg, hhead b rfl,
          truth_or (.joined (hcomplete g List.mem_cons_self))]
        exact congrArg (truth neg v (joined connective text g) ⊔ ·) hmore

/-- A chain of complete conditions is as true as the disjunction over its groups of the conjunction
of their conditions, if no condition with an OR outside its groups shares its group. -/
theorem truth_joined {as : List α} (has : as ≠ []) (hcomplete : ∀ a ∈ as, Complete (text a))
    (halone : ∀ g ∈ groups connective as, g.length = 1 ∨ ∀ a ∈ g, Conjunctive (text a)) :
    truth neg v (joined connective text as) =
      ((groups connective as).map fun g =>
        (g.map fun a => truth neg v (text a)).foldr (· ⊓ ·) ⊤).foldr (· ⊔ ·) ⊥ := by
  have hflatten : (groups connective as).flatten = as := List.flatten_splitBy _ as
  have hmem : ∀ g ∈ groups connective as, ∀ a ∈ g, Complete (text a) := fun g hg a ha =>
    hcomplete a (hflatten ▸ List.mem_flatten_of_mem hg ha)
  have hor : (groups connective as).IsChain fun _ h => ∀ b ∈ h.head?, connective b = .or := by
    refine (List.isChain_getLast_head_splitBy _ as).imp fun g h hseam b hb => ?_
    obtain ⟨-, hh, hseam⟩ := hseam
    rw [List.head_of_mem_head? hb] at hseam
    cases hc : connective b <;> simp_all
  have hgroups : groups connective as ≠ [] := List.splitBy_ne_nil.mpr has
  have hdisjunction := truth_disjunction neg v hgroups (List.nil_notMem_splitBy _ as) hor hmem
  rw [hflatten] at hdisjunction
  rw [hdisjunction]
  refine congrArg (List.foldr (· ⊔ ·) ⊥) (List.map_congr_left fun g hg => ?_)
  rcases halone g hg with hlength | hconjunctive
  · obtain ⟨a, rfl⟩ := List.length_eq_one_iff.mp hlength
    simp [joined]
  · have hand : g.IsChain fun _ b => connective b = .and :=
      (List.isChain_of_mem_splitBy hg).imp fun _ b hb => by simpa using hb
    exact truth_conjunction neg v (List.ne_nil_of_mem_splitBy hg) hand (hmem g hg) hconjunctive

end Joined

end Sql

end BoundSql
