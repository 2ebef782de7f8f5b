import BoundSql.Proofs.Query.Steps
import Mathlib.Data.List.Nodup

/-! Records and payloads.  A record is the writes that made it, each column with what was last
written to it (`Record.columns_ofList`, `Record.get?_ofList`).  Rows are a payload unless there are
none, the first of them has no columns, or a later one has a column that the first one lacks. -/

namespace BoundSql

variable {α : Type}

/-- The columns that writes set, in the order in which they were first set. -/
def written (writes : List (String × α)) : List String := (writes.map Prod.fst).eraseDups

/-- What was last written to a column. -/
def lastWrite? (writes : List (String × α)) (column : String) : Option α :=
  writes.reverse.lookup column

/-- The first column of a record that another record lacks. -/
def Record.Stray (first r : Record α) (column : String) : Prop :=
  ∃ front back, r.columns = front ++ column :: back ∧ (∀ c ∈ front, c ∈ first.columns) ∧
    column ∉ first.columns

namespace Record

theorem contains_iff {r : Record α} {column : String} : r.contains column ↔ column ∈ r.columns := by
  rw [contains, get?, columns]
  induction r.fields with
  | nil => simp
  | cons field rest ih =>
    obtain ⟨c, v⟩ := field
    rw [List.lookup_cons, List.map_cons, List.mem_cons]
    by_cases h : column = c
    · simp [h]
    · simp [beq_false_of_ne h, h, ih]

theorem find?_stray_iff {first r : Record α} {column : String} :
    (r.columns.find? fun c => !first.contains c) = some column ↔ first.Stray r column := by
  simp only [List.find?_eq_some_iff_append, Stray, Bool.not_eq_true', Bool.eq_false_iff, ne_eq,
    contains_iff, Bool.not_not]
  constructor
  · rintro ⟨hcolumn, front, back, hsplit, hfront⟩
    exact ⟨front, back, hsplit, hfront, hcolumn⟩
  · rintro ⟨front, back, hsplit, hfront, hcolumn⟩
    exact ⟨hcolumn, front, back, hsplit, hfront⟩

theorem find?_stray_eq_none_iff {first r : Record α} :
    (r.columns.find? fun c => !first.contains c) = none ↔ r.columns ⊆ first.columns := by
  simp [List.find?_eq_none, contains_iff, List.subset_def]

theorem ofList_concat (writes : List (String × α)) (column : String) (a : α) :
    ofList (writes ++ [(column, a)]) = (ofList writes).set column a := by
  simp [ofList]

theorem columns_ofList (writes : List (String × α)) : (ofList writes).columns = written writes := by
  induction writes using List.reverseRecOn with
  | nil => rfl
  | append_singleton writes write ih =>
    obtain ⟨column, a⟩ := write
    rw [ofList_concat, columns_set, ih, written, written, List.map_append, List.eraseDups_append]
    by_cases h : column ∈ writes.map Prod.fst
    · rw [if_pos (List.mem_eraseDups.mpr h)]
      simp [List.removeAll, h]
    · rw [if_neg (mt List.mem_eraseDups.mp h)]
      simp [List.removeAll, h, List.eraseDups_cons]

theorem get?_ofList (writes : List (String × α)) (column : String) :
    (ofList writes).get? column = lastWrite? writes column := by
  induction writes using List.reverseRecOn with
  | nil => rfl
  | append_singleton writes write ih =>
    rw [ofList_concat, get?_set, ih, lastWrite?, lastWrite?, List.reverse_concat, List.lookup_cons]
    by_cases h : column = write.1
    · rw [if_pos h, beq_iff_eq.mpr h]
    · rw [if_neg h, beq_false_of_ne h]

theorem mem_fields_iff {r : Record α} {column : String} {a : α} :
    (column, a) ∈ r.fields ↔ r.get? column = some a := by
  rw [get?, List.lookup_eq_some_iff]
  constructor
  · intro hmem
    obtain ⟨front, back, hfields⟩ := List.append_of_mem hmem
    refine ⟨front, back, hfields, fun field hfield => ?_⟩
    have hnodup := r.columns_nodup
    rw [hfields, List.map_append, List.map_cons, List.nodup_append] at hnodup
    have hne := hnodup.2.2 field.1 (List.mem_map_of_mem hfield) column List.mem_cons_self
    simpa using hne.symm
  · rintro ⟨front, back, hfields, _⟩
    simp [hfields]

end Record

theorem strayColumn?_eq_some_iff {first : Record α} {n number : Nat} {rest : List (Record α)}
    {column : String} :
    strayColumn? first n rest = some (number, column) ↔
      ∃ before r after, rest = before ++ r :: after ∧
        (∀ b ∈ before, b.columns ⊆ first.columns) ∧ first.Stray r column ∧
        number = n + before.length := by
  induction rest generalizing n with
  | nil => simp [strayColumn?]
  | cons r rest ih =>
    rw [strayColumn?]
    split
    · rename_i c hfind
      have hstray := Record.find?_stray_iff.mp hfind
      constructor
      · rintro heq
        cases heq
        exact ⟨[], r, rest, rfl, nofun, hstray, rfl⟩
      · rintro ⟨before, r', after, hsplit, hbefore, hstray', rfl⟩
        cases before with
        | nil =>
          cases hsplit
          rw [Record.find?_stray_iff.mpr hstray'] at hfind
          cases hfind
          rfl
        | cons b before =>
          cases hsplit
          rw [Record.find?_stray_eq_none_iff.mpr (hbefore r (by simp))] at hfind
          cases hfind
    · rename_i hfind
      have hsubset := Record.find?_stray_eq_none_iff.mp hfind
      rw [ih]
      constructor
      · rintro ⟨before, r', after, rfl, hbefore, hstray, rfl⟩
        refine ⟨r :: before, r', after, rfl, ?_, hstray, by simp; omega⟩
        exact List.forall_mem_cons.mpr ⟨hsubset, hbefore⟩
      · rintro ⟨before, r', after, hsplit, hbefore, hstray, rfl⟩
        cases before with
        | nil =>
          cases hsplit
          rw [Record.find?_stray_iff.mpr hstray] at hfind
          cases hfind
        | cons b before =>
          cases hsplit
          exact ⟨before, r', after, rfl, fun b hb => hbefore b (by simp [hb]), hstray,
            by simp; omega⟩

theorem strayColumn?_eq_none_iff {first : Record α} {n : Nat} {rest : List (Record α)} :
    strayColumn? first n rest = none ↔ ∀ r ∈ rest, r.columns ⊆ first.columns := by
  induction rest generalizing n with
  | nil => simp [strayColumn?]
  | cons r rest ih =>
    rw [strayColumn?, List.forall_mem_cons, ← ih (n := n + 1), ← Record.find?_stray_eq_none_iff]
    cases r.columns.find? fun c => !first.contains c <;> simp

namespace Payload

theorem ofRows_noColumns {first : Record α} (h : first.columns = []) (rest : List (Record α)) :
    ofRows (first :: rest) = .error .noColumns := if_pos (Record.isEmpty_iff.mpr h)

theorem ofRows_cons {first : Record α} (h : first.columns ≠ []) (rest : List (Record α)) :
    ofRows (first :: rest) =
      match strayColumn? first 2 rest with
      | some (number, column) => .error (.strayColumn number column)
      | none => .ok (.rows (first :: rest)) := if_neg (h ∘ Record.isEmpty_iff.mp)

theorem ofAssignments_error_iff {record : Record α} {fault : StepFault} :
    ofAssignments record = .error fault ↔ record.columns = [] ∧ .noAssignments = fault := by
  rw [ofAssignments, ← Record.isEmpty_iff]
  split <;> simp_all

theorem ofUpsert_error_iff {insert update : Record α} {fault : StepFault} :
    ofUpsert insert update = .error fault ↔
      (insert.columns = [] ∨ update.columns = []) ∧ .noUpsertColumns = fault := by
  rw [ofUpsert, ← Record.isEmpty_iff, ← Record.isEmpty_iff, ← Bool.or_eq_true]
  split <;> simp_all

theorem ofRows_ok {first : Record α} (hfirst : first.columns ≠ []) {rest : List (Record α)}
    (hrest : ∀ r ∈ rest, r.columns ⊆ first.columns) :
    ofRows (first :: rest) = .ok (.rows (first :: rest)) := by
  rw [ofRows_cons hfirst, strayColumn?_eq_none_iff.mpr hrest]

end Payload

end BoundSql
