import BoundSql.Proofs.Query.Payloads

/-! Records as ordered maps.  `Record.Keeps` says which record a history of writes leaves: each
column once, where it was first written, with what was last written to it.  Every sequence of calls
leaves that record, and so do pairs that are collected (`Record.writes_kept`). -/

namespace BoundSql

variable {α : Type}

theorem forall_bne_iff {writes : List (String × α)} {column : String} :
    (∀ write ∈ writes, column != write.1) ↔ column ∉ writes.map Prod.fst := by
  constructor
  · intro h hmem
    obtain ⟨write, hwrite, rfl⟩ := List.mem_map.mp hmem
    simpa using h write hwrite
  · intro h write hwrite
    have hne : column ≠ write.1 := by
      rintro rfl
      exact h (List.mem_map_of_mem hwrite)
    simpa using hne

/-- A last write is one with no write to its column behind it. -/
theorem lastWrite?_eq_some_iff {writes : List (String × α)} {column : String} {a : α} :
    lastWrite? writes column = some a ↔
      ∃ before after, writes = before ++ (column, a) :: after ∧ column ∉ after.map Prod.fst := by
  rw [lastWrite?, List.lookup_eq_some_iff]
  constructor
  · rintro ⟨after, before, hsplit, hafter⟩
    refine ⟨before.reverse, after.reverse, ?_, ?_⟩
    · have h := congrArg List.reverse hsplit
      simpa using h
    · rw [List.map_reverse, List.mem_reverse]
      exact forall_bne_iff.mp hafter
  · rintro ⟨before, after, rfl, hafter⟩
    refine ⟨after.reverse, before.reverse, by simp, forall_bne_iff.mpr ?_⟩
    rwa [List.map_reverse, List.mem_reverse]

theorem lastWrite?_eq_none_iff {writes : List (String × α)} {column : String} :
    lastWrite? writes column = none ↔ column ∉ writes.map Prod.fst := by
  rw [lastWrite?, List.lookup_eq_none_iff, forall_bne_iff, List.map_reverse, List.mem_reverse]

/-- What `eraseDups` keeps of a list stands in the order of first occurrences. -/
theorem pairwise_idxOf_eraseDups (names : List String) :
    names.eraseDups.Pairwise fun c d => names.idxOf c < names.idxOf d := by
  -- From the end: a name added there moves no first occurrence, and its own is behind them all.
  induction names using List.reverseRecOn with
  | nil => exact .nil
  | append_singleton names name ih =>
    have hold : ∀ c ∈ names.eraseDups, (names ++ [name]).idxOf c = names.idxOf c := by
      intro c hc
      exact List.idxOf_append_of_mem (List.mem_eraseDups.mp hc)
    have hkept : names.eraseDups.Pairwise fun c d =>
        (names ++ [name]).idxOf c < (names ++ [name]).idxOf d := by
      refine ih.imp_of_mem fun hc hd hlt => ?_
      rwa [hold _ hc, hold _ hd]
    rw [List.eraseDups_append]
    by_cases hname : name ∈ names
    · simpa [List.removeAll, hname] using hkept
    · have hnew : ([name].removeAll names).eraseDups = [name] := by
        simp [List.removeAll, hname, List.eraseDups_cons]
      rw [hnew]
      refine List.pairwise_append.mpr ⟨hkept, List.pairwise_singleton _ _, fun c hc d hd => ?_⟩
      rw [List.mem_singleton.mp hd, hold c hc, List.idxOf_append_of_notMem hname]
      have hlt := List.idxOf_lt_length_iff.mpr (List.mem_eraseDups.mp hc)
      omega

/-- A column that is among the fields is overwritten where it stands. -/
theorem assignField_of_mem {column : String} {fields : List (String × α)}
    (h : column ∈ fields.map Prod.fst) (a : α) :
    assignField column a fields =
      fields.set ((fields.map Prod.fst).idxOf column) (column, a) := by
  induction fields with
  | nil => cases h
  | cons field rest ih =>
    obtain ⟨c, v⟩ := field
    rw [assignField]
    by_cases hc : c = column
    · subst hc
      simp
    · rcases List.mem_cons.mp h with hhead | hrest
      · exact absurd hhead.symm hc
      · rw [if_neg hc, ih hrest, List.map_cons, List.idxOf_cons_ne _ hc, List.set_cons_succ]

namespace Record

/-- A call that writes to a column: a value, in whatever form the caller has it, or NULL. -/
inductive Call (α : Type) where
  | set (column : String) (value : α)
  | setNull (column : String)

/-- The column that a call names, with what the call writes there. -/
def Call.write [HasNull α] : Call α → String × α
  | .set column value => (column, value)
  | .setNull column => (column, HasNull.null)

def call [HasNull α] (r : Record α) : Call α → Record α
  | .set column value => r.set column value
  | .setNull column => r.setNull column

/-- A record is the ordered map of a history of writes. -/
structure Keeps (writes : List (String × α)) (r : Record α) : Prop where
  nodup : r.columns.Nodup
  mem (c : String) : c ∈ r.columns ↔ c ∈ writes.map Prod.fst
  /-- Columns stand in the order of their first writes. -/
  order : r.columns.Pairwise fun c d =>
    (writes.map Prod.fst).idxOf c < (writes.map Prod.fst).idxOf d
  get?_eq_some (c : String) (a : α) : r.get? c = some a ↔
    ∃ before after, writes = before ++ (c, a) :: after ∧ c ∉ after.map Prod.fst
  get?_eq_none (c : String) : r.get? c = none ↔ c ∉ writes.map Prod.fst
  contains (c : String) : r.contains c = (r.get? c).isSome ∧ (r.contains c ↔ c ∈ r.columns)
  size : r.columns.length = r.size ∧ r.values.length = r.size
  /-- Every value stands where its column stands. -/
  values : r.values.map some = r.columns.map r.get?

theorem values_eq (r : Record α) : r.values.map some = r.columns.map r.get? := by
  rw [values, columns, List.map_map, List.map_map]
  refine List.map_congr_left fun field hfield => ?_
  exact (mem_fields_iff.mp hfield).symm

theorem keeps_ofList (writes : List (String × α)) : Keeps writes (ofList writes) where
  nodup := (ofList writes).columns_nodup
  mem c := by rw [columns_ofList, written, List.mem_eraseDups]
  order := by
    rw [columns_ofList]
    exact pairwise_idxOf_eraseDups _
  get?_eq_some c a := by rw [get?_ofList, lastWrite?_eq_some_iff]
  get?_eq_none c := by rw [get?_ofList, lastWrite?_eq_none_iff]
  contains c := ⟨rfl, contains_iff⟩
  size := ⟨List.length_map _, List.length_map _⟩
  values := values_eq _

theorem foldl_set (pairs : List (String × α)) (writes : List (String × α)) :
    pairs.foldl (fun r pair => r.set pair.1 pair.2) (ofList writes) = ofList (writes ++ pairs) := by
  rw [ofList, ofList, List.foldl_append]

theorem foldl_call [HasNull α] (calls : List (Call α)) :
    calls.foldl call empty = ofList (calls.map Call.write) := by
  rw [ofList, List.foldl_map]
  congr 1
  funext r c
  cases c <;> rfl

/-- Whatever calls make a record, and whatever pairs it is collected from, it is the ordered map of
its writes.  Collecting goes on where it stopped, and a column that is set again leaves all other
fields alone. -/
theorem writes_kept [HasNull α] :
    (∀ calls : List (Call α), Keeps (calls.map Call.write) (calls.foldl call empty)) ∧
    (∀ pairs : List (String × α), Keeps pairs (ofList pairs)) ∧
    (∀ front back : List (String × α), ofList (front ++ back) =
      back.foldl (fun r pair => r.set pair.1 pair.2) (ofList front)) ∧
    ∀ (r : Record α) (column : String) (a : α), column ∈ r.columns →
      (r.set column a).columns = r.columns ∧
        ∀ i : Nat, r.columns[i]? ≠ some column → (r.set column a).values[i]? = r.values[i]? := by
  refine ⟨fun calls => ?_, keeps_ofList, fun front back => (foldl_set back front).symm,
    fun r column a h => ⟨?_, fun i hi => ?_⟩⟩
  · rw [foldl_call]
    exact keeps_ofList _
  · rw [columns_set, if_pos h]
  · have hne : r.columns.idxOf column ≠ i := by
      rintro rfl
      exact hi (List.getElem?_idxOf h)
    have hfields : (r.set column a).fields = r.fields.set (r.columns.idxOf column) (column, a) :=
      assignField_of_mem h a
    rw [values, values, hfields, List.getElem?_map, List.getElem?_map, List.getElem?_set_ne hne]

/-- A column that is set twice, with a NULL between. -/
def setTwice : List (Call Value) :=
  [.set "b" (.int8 1), .setNull "a", .set "b" (.int8 2), .set "c" (.int8 3)]

theorem writes_kept_setTwice :
    let r := setTwice.foldl call empty
    Keeps (setTwice.map Call.write) r ∧
      r.fields = [("b", .int8 2), ("a", .null), ("c", .int8 3)] ∧
      "a" ∈ r.columns ∧ r.columns[2]? ≠ some "a" ∧
      (r.set "a" (.int8 4)).columns = r.columns ∧
      (r.set "a" (.int8 4)).values[2]? = r.values[2]? := by
  intro r
  have hmem : "a" ∈ r.columns := by decide
  have hother : r.columns[2]? ≠ some "a" := by decide
  obtain ⟨hcalls, _, _, hset⟩ := writes_kept (α := Value)
  obtain ⟨hcolumns, hvalues⟩ := hset r "a" (.int8 4) hmem
  exact ⟨hcalls setTwice, by decide, hmem, hother, hcolumns, hvalues 2 hother⟩

end Record

end BoundSql
