import BoundSql.Proofs.Sql.Truth
import Mathlib.Data.Fintype.Order

/-! The meaning of a WHERE clause.  `Condition.scan_fragment` gives the lexemes of a condition's
text, and `truth_whereClause` the truth of a clause from the truths of the texts in it. -/

namespace BoundSql

open Sql

variable {σ : Type}

def Comparison.lexemes : Comparison → List Lexeme
  | .eq => [.sign '=']
  | .ne => [.sign '!', .sign '=']
  | .gt => [.sign '>']
  | .ge => [.sign '>', .sign '=']
  | .lt => [.sign '<']
  | .le => [.sign '<', .sign '=']
  | .like => [.word "LIKE"]
  | .notLike => [.word "NOT", .word "LIKE"]
  | .ilike => [.word "ILIKE"]
  | .notIlike => [.word "NOT", .word "ILIKE"]

/-- The lexemes of slots with commas between them, the first one numbered `n`. -/
def slotLexemes (style : PlaceholderStyle) (n : Nat) : List σ → List Lexeme
  | [] => []
  | [_] => [.mark style n]
  | _ :: y :: rest => .mark style n :: .sign ',' :: slotLexemes style (n + 1) (y :: rest)

def negation (negated : Bool) : List Lexeme := if negated then [.word "NOT"] else []

/-- The lexemes of a condition whose column, or text, has given lexemes. -/
def Condition.lexemes (style : PlaceholderStyle) (n : Nat) (column : List Lexeme) :
    Condition σ → List Lexeme
  | .raw _ => column
  | .compare _ op _ => column ++ (op.lexemes ++ [.mark style n])
  | .between _ negated _ _ =>
    column ++ (negation negated ++
      [.word "BETWEEN", .mark style n, .word "AND", .mark style (n + 1)])
  | .membership _ negated [] => [.word "1", .sign '=', .word (if negated then "1" else "0")]
  | .membership _ negated (x :: xs) =>
    column ++ (negation negated ++
      (.word "IN" :: .sign '(' :: (slotLexemes style n (x :: xs) ++ [.sign ')'])))
  | .nullness _ negated => column ++ (.word "IS" :: (negation negated ++ [.word "NULL"]))

section Scan

variable {style : PlaceholderStyle}

theorem scan_slotList (style : PlaceholderStyle) (n : Nat) (xs : List σ) :
    scan ((Fragment.slotList xs).chars style n) = some (slotLexemes style n xs) := by
  fun_induction slotLexemes style n xs with
  | case1 => rfl
  | case2 n x => simpa [Fragment.slotList, Fragment.commaList] using scan_mark style n
  | case3 n x y rest ih =>
    have hlist : Fragment.slotList (x :: y :: rest) =
        .slot x ++ .text ", " ++ Fragment.slotList (y :: rest) := rfl
    have hcomma : scan ", ".toList = some [.sign ','] := by decide
    rw [hlist, Fragment.chars_append, Fragment.chars_append, Fragment.chars_text,
      Fragment.chars_slot, List.append_assoc]
    simpa using scan_gap (scan_mark style n) hcomma (by decide) ih

theorem Comparison.scan_sql (op : Comparison) :
    scan (" " ++ op.sql ++ " ").toList = some op.lexemes := by
  cases op <;> decide

theorem Condition.scan_fragment {c : Condition σ} {ts : List Lexeme}
    (h : scan c.column.toList = some ts) (n : Nat) :
    scan (c.fragment.chars style n) = some (c.lexemes style n ts) := by
  cases c with
  | raw expression => simpa [fragment, lexemes, column] using h
  | compare column op x =>
    have hscan := scan_gap h op.scan_sql (by cases op <;> decide) (scan_mark style n)
    simpa [fragment, lexemes, Condition.column, String.append_assoc] using hscan
  | between column negated low high =>
    have hand : scan " AND ".toList = some [.word "AND"] := by decide
    have hkeyword : scan (if negated then " NOT BETWEEN " else " BETWEEN ").toList =
        some (negation negated ++ [.word "BETWEEN"]) := by
      cases negated <;> decide
    have hrange := scan_gap (scan_mark style n) hand (by decide) (scan_mark style (n + 1))
    have hscan := scan_gap h hkeyword (by cases negated <;> decide) hrange
    simpa [fragment, lexemes, Condition.column, String.append_assoc] using hscan
  | membership column negated xs =>
    cases xs with
    | nil =>
      have hconstant : scan (if negated then "1=1" else "1=0").toList =
          some [.word "1", .sign '=', .word (if negated then "1" else "0")] := by
        cases negated <;> decide
      simpa [fragment, lexemes] using hconstant
    | cons x xs =>
      have hclose : scan [')'] = some [.sign ')'] := by decide
      have hkeyword : scan (if negated then " NOT IN (" else " IN (").toList =
          some (negation negated ++ [.word "IN", .sign '(']) := by
        cases negated <;> decide
      have hinside := scan_append (scan_slotList style n (x :: xs)) hclose (.inr (by decide))
      have hscan := scan_gap h hkeyword (by cases negated <;> decide) hinside
      simpa [fragment, lexemes, Condition.column] using hscan
  | nullness column negated =>
    have htest : scan (if negated then " IS NOT NULL" else " IS NULL").toList =
        some (.word "IS" :: (negation negated ++ [.word "NULL"])) := by
      cases negated <;> decide
    have hscan := scan_append h htest (.inr (by cases negated <;> decide))
    simpa [fragment, lexemes, Condition.column] using hscan

end Scan

/-! ### Conditions -/

section Condition

theorem neutral_negation (negated : Bool) : Neutral (negation negated) := by
  cases negated <;> exact .of_not_mem (by decide)

theorem slotLexemes_not_mem (style : PlaceholderStyle) (n : Nat) (xs : List σ) :
    ∀ t ∈ slotLexemes style n xs, t ∉ structural := by
  fun_induction slotLexemes style n xs with
  | case1 => exact fun t ht => nomatch ht
  | case2 n x => exact List.forall_mem_singleton.mpr (mark_not_mem style n)
  | case3 n x y rest ih =>
    exact List.forall_mem_cons.mpr ⟨mark_not_mem style n,
      List.forall_mem_cons.mpr ⟨by decide, ih⟩⟩

theorem Condition.lexemes_eq (style : PlaceholderStyle) (n : Nat) (c : Condition σ)
    (column : List Lexeme) :
    Neutral (c.lexemes style n column) ∨
      ∃ test, Neutral test ∧ c.lexemes style n column = column ++ test := by
  cases c with
  | raw expression => exact .inr ⟨[], .of_not_mem (by simp), (List.append_nil _).symm⟩
  | compare name op x =>
    refine .inr ⟨_, .append (.of_not_mem ?_) (.of_not_mem ?_), rfl⟩
    · cases op <;> decide
    · exact List.forall_mem_singleton.mpr (mark_not_mem style n)
  | between name negated low high =>
    exact .inr ⟨_, (neutral_negation negated).append
      (.between (mark_not_mem style n) (mark_not_mem style (n + 1))), rfl⟩
  | membership name negated xs =>
    cases xs with
    | nil =>
      have hconstant : ∀ t ∈ [Lexeme.word "1", .sign '=', .word (if negated then "1" else "0")],
          t ∉ structural := by
        cases negated <;> decide
      exact .inl (.of_not_mem hconstant)
    | cons x xs =>
      have hin : Neutral [.word "IN"] := .of_not_mem (by decide)
      exact .inr ⟨_, (neutral_negation negated).append
        (hin.append (.group (slotLexemes_not_mem style n (x :: xs)))), rfl⟩
  | nullness name negated =>
    have his : Neutral [.word "IS"] := .of_not_mem (by decide)
    have hnull : Neutral [.word "NULL"] := .of_not_mem (by decide)
    exact .inr ⟨_, his.append ((neutral_negation negated).append hnull), rfl⟩

variable {c : Condition σ} {ts : List Lexeme}

theorem Condition.complete_lexemes (style : PlaceholderStyle) (n : Nat) (h : Complete ts) :
    Complete (c.lexemes style n ts) := by
  obtain hneutral | ⟨test, htest, heq⟩ := c.lexemes_eq style n ts
  · exact hneutral.complete
  · exact heq ▸ h.append_neutral htest

theorem Condition.conjunctive_lexemes (style : PlaceholderStyle) (n : Nat) (h : Complete ts)
    (hts : Conjunctive ts) : Conjunctive (c.lexemes style n ts) := by
  obtain hneutral | ⟨test, htest, heq⟩ := c.lexemes_eq style n ts
  · rw [Conjunctive, hneutral.connectives]
    exact List.not_mem_nil
  · exact heq ▸ hts.append_neutral h htest

end Condition

/-! ### Chains of predicates -/

section Clause

/-- Predicates, each with the number of its first slot. -/
def numberFrom (n : Nat) : List (Predicate σ) → List (Nat × Predicate σ)
  | [] => []
  | p :: rest => (n, p) :: numberFrom (n + p.slotCount) rest

/-- The lexemes of the text of a predicate's condition, by itself. -/
def Predicate.scanned (style : PlaceholderStyle) (p : Nat × Predicate σ) : List Lexeme :=
  (scan (p.2.condition.fragment.chars style p.1)).getD []

/-- A text that can be scanned and leaves nothing open. -/
def CompleteText (s : String) : Prop := (scan s.toList).any fun ts => decide (Complete ts)

/-- A text without an OR outside its groups. -/
def ConjunctiveText (s : String) : Prop := (scan s.toList).any fun ts => decide (Conjunctive ts)

instance (s : String) : Decidable (CompleteText s) := inferInstanceAs (Decidable (_ = true))

instance (s : String) : Decidable (ConjunctiveText s) := inferInstanceAs (Decidable (_ = true))

theorem CompleteText.exists_scan {s : String} (h : CompleteText s) :
    ∃ ts, scan s.toList = some ts ∧ Complete ts := by
  cases hs : scan s.toList with
  | none => simp [CompleteText, hs] at h
  | some ts => exact ⟨ts, rfl, by simpa [CompleteText, hs] using h⟩

variable {style : PlaceholderStyle}

theorem map_snd_numberFrom (n : Nat) (ps : List (Predicate σ)) :
    (numberFrom n ps).map Prod.snd = ps := by
  induction ps generalizing n with
  | nil => rfl
  | cons p rest ih => rw [numberFrom, List.map_cons, ih]

theorem mem_of_mem_numberFrom {n : Nat} {ps : List (Predicate σ)} {p : Nat × Predicate σ}
    (h : p ∈ numberFrom n ps) : p.2 ∈ ps :=
  map_snd_numberFrom n ps ▸ List.mem_map_of_mem h

theorem Predicate.scan_condition {p : Nat × Predicate σ} (h : CompleteText p.2.condition.column) :
    scan (p.2.condition.fragment.chars style p.1) = some (scanned style p) := by
  obtain ⟨ts, hts, -⟩ := h.exists_scan
  rw [scanned, Condition.scan_fragment hts p.1, Option.getD_some]

theorem Predicate.complete_scanned {p : Nat × Predicate σ}
    (h : CompleteText p.2.condition.column) : Complete (scanned style p) := by
  obtain ⟨ts, hts, hcomplete⟩ := h.exists_scan
  rw [scanned, Condition.scan_fragment hts p.1, Option.getD_some]
  exact Condition.complete_lexemes style p.1 hcomplete

theorem Predicate.conjunctive_scanned {p : Nat × Predicate σ}
    (h : CompleteText p.2.condition.column) (hor : ConjunctiveText p.2.condition.column) :
    Conjunctive (scanned style p) := by
  obtain ⟨ts, hts, hcomplete⟩ := h.exists_scan
  rw [scanned, Condition.scan_fragment hts p.1, Option.getD_some]
  refine Condition.conjunctive_lexemes style p.1 hcomplete ?_
  simpa [ConjunctiveText, hts] using hor

theorem concat_continuation_cons (p : Predicate σ) (rest : List (Predicate σ)) :
    Fragment.concat ((p :: rest).map Predicate.continuation) =
      .text (" " ++ p.connective.sql ++ " ") ++
        (p.condition.fragment ++ Fragment.concat (rest.map Predicate.continuation)) := by
  simp [Fragment.concat, Predicate.continuation, Fragment.append_assoc]

/-- The conditions of a chain one after the other, with the connectives between them. -/
theorem scan_chain (style : PlaceholderStyle) {p : Predicate σ} {rest : List (Predicate σ)}
    (h : ∀ q ∈ p :: rest, CompleteText q.condition.column) (n : Nat) :
    scan ((p.condition.fragment ++ Fragment.concat (rest.map Predicate.continuation)).chars style
        n) =
      some (joined (fun q => q.2.connective) (Predicate.scanned style)
        (numberFrom n (p :: rest))) := by
  have hp : scan (p.condition.fragment.chars style n) = some (Predicate.scanned style (n, p)) :=
    Predicate.scan_condition (p := (n, p)) (h p (by simp))
  induction rest generalizing p n with
  | nil => simpa [Fragment.concat, numberFrom, joined] using hp
  | cons q rest ih =>
    have hrest : ∀ r ∈ q :: rest, CompleteText r.condition.column := fun r hr =>
      h r (List.mem_cons_of_mem p hr)
    have hq := ih hrest (n + p.slotCount)
      (Predicate.scan_condition (p := (_, q)) (hrest q (by simp)))
    have hconnective : scan (" " ++ q.connective.sql ++ " ").toList =
        some [q.connective.lexeme] := by
      cases q.connective <;> decide
    have hscan := scan_gap hp hconnective (by cases q.connective <;> decide) hq
    rw [concat_continuation_cons, Fragment.chars_append, Fragment.chars_append,
      Fragment.chars_text, Condition.slots_fragment, Fragment.slots_text]
    exact hscan

variable {V : Type} [Lattice V] [BoundedOrder V]

/-- The disjunction, over the groups that the ORs of a chain leave, of the conjunction of the truths
of its conditions, the text of each by itself. -/
def groupedTruth (style : PlaceholderStyle) (n : Nat) (neg : V → V) (v : List Lexeme → V)
    (ps : List (Predicate σ)) : V :=
  ((groups (fun p => p.2.connective) (numberFrom n ps)).map fun g =>
    (g.map fun p => truth neg v (Predicate.scanned style p)).foldr (· ⊓ ·) ⊤).foldr (· ⊔ ·) ⊥

theorem groupedTruth_eq (style : PlaceholderStyle) (n : Nat) (neg : V → V) (v : List Lexeme → V)
    (ps : List (Predicate σ)) :
    groupedTruth style n neg v ps =
      (((groups (fun p => p.2.connective) (numberFrom n ps)).map
        (List.map (Predicate.scanned style))).map fun g =>
          (g.map (truth neg v)).foldr (· ⊓ ·) ⊤).foldr (· ⊔ ·) ⊥ := by
  simp [groupedTruth, List.map_map, Function.comp_def]

/-- The truth of a WHERE clause depends on a text in it only through the truth of this text, if no
text with an OR outside its parentheses shares its group. -/
theorem truth_whereClause (style : PlaceholderStyle) (n : Nat) {ps : List (Predicate σ)}
    (hps : ps ≠ []) (hcomplete : ∀ p ∈ ps, CompleteText p.condition.column)
    (halone : ∀ g ∈ groups Predicate.connective ps,
      g.length = 1 ∨ ∀ p ∈ g, ConjunctiveText p.condition.column) :
    ∃ ts, scan ((whereClause ps).chars style n) = some (.word "WHERE" :: ts) ∧
      ∀ (neg : V → V) (v : List Lexeme → V),
        truth neg v ts = groupedTruth style n neg v ps := by
  have hnumbered : ∀ p ∈ numberFrom n ps, CompleteText p.2.condition.column := fun p hp =>
    hcomplete p.2 (mem_of_mem_numberFrom hp)
  have hclause : scan ((whereClause ps).chars style n) =
      some (.word "WHERE" :: joined (fun p => p.2.connective) (Predicate.scanned style)
        (numberFrom n ps)) := by
    cases ps with
    | nil => exact absurd rfl hps
    | cons p rest =>
      have hkeyword : scan " WHERE ".toList = some [.word "WHERE"] := by decide
      have hscan := scan_append hkeyword (scan_chain style hcomplete n) (.inl (by decide))
      rw [whereClause, Fragment.append_assoc, Fragment.chars_append, Fragment.chars_text,
        Fragment.slots_text]
      exact hscan
  refine ⟨_, hclause, fun neg v => truth_joined neg v ?_ ?_ ?_⟩
  · exact fun h => hps (by simpa [h] using (map_snd_numberFrom n ps).symm)
  · exact fun p hp => Predicate.complete_scanned (hnumbered p hp)
  · -- the groups of the predicates are those of the numbered predicates without the numbers
    rw [← map_snd_numberFrom n ps, groups_map] at halone
    intro g hg
    have hmem : ∀ p ∈ g, p ∈ numberFrom n ps := fun p hp =>
      List.flatten_splitBy (fun _ p => p.2.connective == .and) (numberFrom n ps) ▸
        List.mem_flatten_of_mem hg hp
    rcases halone _ (List.mem_map_of_mem hg) with hlength | hconjunctive
    · exact .inl (by simpa using hlength)
    · exact .inr fun p hp => Predicate.conjunctive_scanned (hnumbered p (hmem p hp))
        (hconjunctive p.2 (List.mem_map_of_mem hp))

/-- An OR in a group of its own beside a group of two. -/
def looseOr : List (Predicate Hole) :=
  [⟨.and, .raw "a OR NOT b"⟩, ⟨.or, .raw "c AND (d OR e)"⟩, ⟨.and, .compare "f" .eq ()⟩]

theorem truth_whereClause_looseOr :
    ∃ ts, scan ((whereClause looseOr).chars .dollar 1) = some (.word "WHERE" :: ts) ∧
      ∀ (neg : Bool → Bool) (v : List Lexeme → Bool),
        truth neg v ts = groupedTruth .dollar 1 neg v looseOr ∧
        truth neg v ts = (v [.word "A"] || neg (v [.word "B"]) ||
          (v [.word "C"] && (v [.word "D"] || v [.word "E"])) &&
            v [.word "F", .sign '=', .word "$1"]) := by
  obtain ⟨ts, hts, htruth⟩ :=
    truth_whereClause (V := Bool) .dollar 1 (by decide : looseOr ≠ []) (by decide) (by decide)
  refine ⟨ts, hts, fun neg v => ⟨htruth neg v, ?_⟩⟩
  have hplain : ∀ t ∈ [Lexeme.word "A", .word "B", .word "C", .word "D", .word "E"],
      connectives {} [t] = [] ∧ [t].head? ≠ some (.word "NOT") ∧ inside? [t] = none := by
    decide
  have hatom : ∀ t ∈ [Lexeme.word "A", .word "B", .word "C", .word "D", .word "E"],
      truth neg v [t] = v [t] := fun t ht =>
    truth_atomic (hplain t ht).1 (hplain t ht).2.1 (hplain t ht).2.2 neg v
  have hf : truth neg v [.word "F", .sign '=', .word "$1"] = v [.word "F", .sign '=', .word "$1"] :=
    truth_atomic (by decide) (by decide) rfl neg v
  have hnot : truth neg v [.word "NOT", .word "B"] = neg (truth neg v [.word "B"]) := by
    rw [truth_operand (by decide), operandTruth_not, truth_operand (by decide)]
  have hor : truth neg v [.word "A", .word "OR", .word "NOT", .word "B"] =
      truth neg v [.word "A"] ⊔ truth neg v [.word "NOT", .word "B"] :=
    truth_or (by decide : Complete [.word "A"]) _ neg v
  have hparens : inside? [.sign '(', .word "D", .word "OR", .word "E", .sign ')'] =
      some [.word "D", .word "OR", .word "E"] := by
    decide
  have hinside : truth neg v [.sign '(', .word "D", .word "OR", .word "E", .sign ')'] =
      truth neg v [.word "D"] ⊔ truth neg v [.word "E"] := by
    rw [truth_operand (by decide), operandTruth_inside hparens]
    exact truth_or (by decide : Complete [.word "D"]) _ neg v
  have hand : truth neg v
      [.word "C", .word "AND", .sign '(', .word "D", .word "OR", .word "E", .sign ')'] =
      truth neg v [.word "C"] ⊓
        truth neg v [.sign '(', .word "D", .word "OR", .word "E", .sign ')'] :=
    truth_and (by decide : Complete [.word "C"]) (by decide) (by decide) neg v
  have hgroups : (groups (fun p => p.2.connective) (numberFrom 1 looseOr)).map
        (List.map (Predicate.scanned .dollar)) =
      [[[.word "A", .word "OR", .word "NOT", .word "B"]],
        [[.word "C", .word "AND", .sign '(', .word "D", .word "OR", .word "E", .sign ')'],
          [.word "F", .sign '=', .word "$1"]]] := by
    decide
  rw [htruth neg v, groupedTruth_eq, hgroups]
  simp [hor, hnot, hand, hinside, hatom, hf]

/-- An OR that a predicate joined by AND takes apart. -/
def tornOr : List (Predicate Hole) := [⟨.and, .raw "a OR b"⟩, ⟨.and, .raw "c"⟩]

/-- With `a` true and all else false, the clause of `tornOr` is true and the conjunction of its two
conditions is false. -/
theorem truth_tornOr :
    (∀ p ∈ tornOr, CompleteText p.condition.column) ∧
      ∃ ts, scan ((whereClause tornOr).chars .dollar 1) = some (.word "WHERE" :: ts) ∧
        truth (!·) (· == [.word "A"]) ts = true ∧
        groupedTruth .dollar 1 (!·) (· == [.word "A"]) tornOr = false := by
  let v : List Lexeme → Bool := (· == [.word "A"])
  have ha : truth (!·) v [.word "A"] = true := truth_atomic (by decide) (by decide) rfl _ v
  have hc : truth (!·) v [.word "C"] = false := truth_atomic (by decide) (by decide) rfl _ v
  have hor : truth (!·) v [.word "A", .word "OR", .word "B"] = true :=
    calc truth (!·) v [.word "A", .word "OR", .word "B"]
      _ = truth (!·) v [.word "A"] ⊔ truth (!·) v [.word "B"] :=
        truth_or (by decide : Complete [.word "A"]) _ _ v
      _ = true := by simp [ha]
  have hclause : truth (!·) v
      [.word "A", .word "OR", .word "B", .word "AND", .word "C"] = true :=
    calc truth (!·) v [.word "A", .word "OR", .word "B", .word "AND", .word "C"]
      _ = truth (!·) v [.word "A"] ⊔ truth (!·) v [.word "B", .word "AND", .word "C"] :=
        truth_or (by decide : Complete [.word "A"]) _ _ v
      _ = true := by simp [ha]
  have hgroups : (groups (fun p => p.2.connective) (numberFrom 1 tornOr)).map
        (List.map (Predicate.scanned .dollar)) =
      [[[.word "A", .word "OR", .word "B"], [.word "C"]]] := by
    decide
  refine ⟨by decide, _, by decide, hclause, ?_⟩
  rw [groupedTruth_eq, hgroups]
  simp [v, hor, hc]

end Clause

end BoundSql
