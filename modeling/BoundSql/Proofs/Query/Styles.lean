import BoundSql.Proofs.Query.Parts
import BoundSql.Proofs.Sql.Gaps

/-! Placeholder styles.  A statement is written in the style of the query it is asked of; the styles
of the members, at any depth, count for nothing.  The style decides on the marks in the slots and on
nothing else: the texts in front of, between and behind the slots, the values and the reasons why
there is no statement are the same in both styles (`Query.styles_agree`). -/

namespace BoundSql

open Sql

variable {α : Type}

mutual

/-- The query with one and the same placeholder style set in it and in its members. -/
def Query.unstyled : Query α → Query α
  | { block, tail, members, outer, conflictTarget, returning, payload, args, memberArgs, style := _,
      fault } =>
    { block, tail, members := Query.unstyledMembers members, outer, conflictTarget, returning,
      payload, args, memberArgs, style := .dollar, fault }

def Query.unstyledMembers : List (SetOp × Query α) → List (SetOp × Query α)
  | [] => []
  | (op, q) :: rest => (op, q.unstyled) :: Query.unstyledMembers rest

end

namespace Query

variable {q r : Query α}

theorem unstyledMembers_eq (members : List (SetOp × Query α)) :
    unstyledMembers members = members.map fun m => (m.1, m.2.unstyled) := by
  induction members with
  | nil => rfl
  | cons m rest ih => rw [unstyledMembers, ih, List.map_cons]

theorem unstyled_eq (q : Query α) :
    q.unstyled =
      { q with members := q.members.map fun m => (m.1, m.2.unstyled), style := .dollar } := by
  rw [← unstyledMembers_eq]
  cases q
  rfl

theorem sameBut_unstyled_of_members (h : ∀ m ∈ q.members, m.2.unstyled.operand = m.2.operand) :
    q.SameBut [.placeholder] q.unstyled := by
  rw [unstyled_eq]
  refine ⟨fun g hne hg => ?_, ?_, rfl, rfl, rfl⟩
  · cases g <;> first | rfl | exact absurd rfl hne | exact absurd (List.mem_singleton_self _) hg
  · simp only [operands, List.map_map]
    exact List.map_congr_left fun m hm => congrArg (m.1, ·) (h m hm).symm

/-- A member counts for the same in any style. -/
theorem operand_unstyled (q : Query α) : q.unstyled.operand = q.operand := by
  induction q using members_induction with
  | h q ih =>
    exact ((sameBut_unstyled_of_members ih).operand_eq (by decide) (.inr (by decide))).symm

theorem sameBut_unstyled (q : Query α) : q.SameBut [.placeholder] q.unstyled :=
  sameBut_unstyled_of_members fun m _ => m.2.operand_unstyled

theorem sameBut_of_unstyled_eq (h : q.unstyled = r.unstyled) : q.SameBut [.placeholder] r :=
  q.sameBut_unstyled.trans (h ▸ r.sameBut_unstyled.symm)

/-- Queries that differ in placeholder styles, their own and those of members at any depth, have the
same statement if their own styles are the same; otherwise both have none for the same reason, or
the texts differ in nothing but the marks of the slots. -/
theorem styles_agree (h : q.unstyled = r.unstyled) (entry : EntryPoint) :
    (q.style = r.style → q.compileAt entry = r.compileAt entry) ∧
    ((∃ e, q.compileAt entry = .error e ∧ r.compileAt entry = .error e) ∨
      ∃ c, q.commandAt entry = .ok c ∧ r.commandAt entry = .ok c ∧
        c.fragment.gaps.length = q.args.length + 1 ∧
        q.compileAt entry = .ok ⟨withMarks q.style.mark 1 c.fragment.gaps, q.args⟩ ∧
        r.compileAt entry = .ok ⟨withMarks r.style.mark 1 c.fragment.gaps, q.args⟩) := by
  have hsame := sameBut_of_unstyled_eq h
  have hcommand : q.commandAt entry = r.commandAt entry :=
    hsame.commandAt_eq (List.cons_subset_cons _ (List.nil_subset _))
  constructor
  · intro hstyle
    have hall : q.SameBut [] r := by
      refine ⟨fun g hne _ => ?_, hsame.operands, hsame.args, hsame.memberArgs, hsame.fault⟩
      by_cases hg : g = .placeholder
      · subst hg
        exact hstyle
      · exact hsame.same g hne fun hmem => hg (List.mem_singleton.mp hmem)
    exact (hall.mono (List.nil_subset _)).compileAt_eq
  · rw [compileAt_eq, compileAt_eq, compileWith, compileWith, hsame.firstFault?_eq, hcommand]
    cases r.firstFault? with
    | some fault => exact .inl ⟨_, rfl, rfl⟩
    | none =>
      cases r.commandAt entry with
      | error fault => exact .inl ⟨_, rfl, rfl⟩
      | ok c =>
        simp only [finish, ← hsame.args, c.fragment.render_eq_withMarks]
        by_cases hcount : c.fragment.slotCount = q.args.length
        · simp only [if_pos hcount]
          exact .inr ⟨c, rfl, rfl, hcount ▸ c.fragment.length_gaps, rfl, rfl⟩
        · simp only [if_neg hcount]
          exact .inl ⟨_, rfl, rfl⟩

/-- A member inside a member, each with a style of its own. -/
def threeStyles (root member inner : PlaceholderStyle) : Query Value :=
  let c : Query Value :=
    (ofTable "c").build [.placeholder inner, .filter ⟨.and, .compare "z" .lt (.int8 3)⟩]
  let b : Query Value := (ofTable "b").build
    [.filter ⟨.and, .raw "y ? '$2'"⟩, .filter ⟨.or, .compare "y" .eq (.int8 2)⟩,
      .combine .unionAll [c], .placeholder member]
  (ofTable "a").build
    [.placeholder root, .combine .union [b], .filter ⟨.and, .compare "x" .gt (.int8 1)⟩]

theorem styles_agree_threeStyles :
    (threeStyles .dollar .question .question).compile .select =
        .ok ⟨"SELECT * FROM a WHERE x > $1 UNION (SELECT * FROM b WHERE y ? '$2' OR y = $2 "
            ++ "UNION ALL SELECT * FROM c WHERE z < $3)",
          [.int8 1, .int8 2, .int8 3]⟩ ∧
      ∃ texts, texts.length = 4 ∧
        (threeStyles .dollar .question .question).compile .select =
          .ok ⟨withMarks (fun k => "$" ++ toString k) 1 texts, [.int8 1, .int8 2, .int8 3]⟩ ∧
        (threeStyles .question .dollar .dollar).compile .select =
          .ok ⟨withMarks (fun _ => "?") 1 texts, [.int8 1, .int8 2, .int8 3]⟩ := by
  have hplain : (threeStyles .dollar .dollar .dollar).compile .select =
      .ok ⟨"SELECT * FROM a WHERE x > $1 UNION (SELECT * FROM b WHERE y ? '$2' OR y = $2 "
          ++ "UNION ALL SELECT * FROM c WHERE z < $3)",
        [.int8 1, .int8 2, .int8 3]⟩ := by
    decide +kernel
  have hmembers : (threeStyles .dollar .question .question).unstyled =
      (threeStyles .dollar .dollar .dollar).unstyled := rfl
  have hroot : (threeStyles .dollar .question .question).unstyled =
      (threeStyles .question .dollar .dollar).unstyled := rfl
  have hsql := ((styles_agree hmembers (.statement .select)).1 rfl).trans hplain
  refine ⟨hsql, ?_⟩
  obtain ⟨e, he, _⟩ | ⟨c, _, _, hlength, hdollar, hquestion⟩ :=
    (styles_agree hroot (.statement .select)).2
  · cases he.symm.trans hsql
  · exact ⟨c.fragment.gaps, hlength, hdollar, hquestion⟩

end Query

end BoundSql
