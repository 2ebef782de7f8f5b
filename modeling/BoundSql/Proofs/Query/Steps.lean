import BoundSql.Query.Step
import Mathlib.Data.List.Induction

/-! What a sequence of steps leaves in a query: the first payload that was in order, the recorded
predicates, the attached members, and the values of the three, one segment after the other, in the
argument list.  `Recorded.apply` shows it for one step and `Recorded.build` for a
sequence. -/

namespace BoundSql

variable {σ α : Type}

/-- What a condition tests. -/
def Condition.operator : Condition σ → Operator
  | .raw _ => .raw
  | .compare _ op _ => .compare op
  | .between _ negated _ _ => if negated then .notBetween else .between
  | .membership _ negated _ => if negated then .notIn else .isIn
  | .nullness _ negated => if negated then .isNotNull else .isNull

namespace Predicate

/-- The number of values that a predicate binds: none for a text and a test for NULL, one for a
comparison, two for a range and one for each element of a list. -/
def width (p : Predicate σ) : Nat :=
  match p.condition with
  | .raw _ | .nullness .. => 0
  | .compare .. => 1
  | .between .. => 2
  | .membership _ _ slots => slots.length

/-- A predicate without its values, as a query records it. -/
def recorded (p : Predicate σ) : Filter :=
  ⟨p.condition.column, p.condition.operator, p.width, p.connective⟩

theorem length_slots (p : Predicate σ) : p.slots.length = p.width := by
  obtain ⟨_, condition⟩ := p
  cases condition <;> rfl

/-- A recorded predicate is written with a slot for each of its values. -/
theorem predicate_recorded (p : Predicate σ) : p.recorded.predicate = p.withHoles := by
  obtain ⟨connective, condition⟩ := p
  cases condition with
  | raw | compare => rfl
  | between _ negated | nullness _ negated => cases negated <;> rfl
  | membership column negated slots =>
    have hslots : List.replicate slots.length () = slots.map fun _ => () :=
      List.map_const'.symm
    cases negated <;>
      exact congrArg (fun s => (⟨connective, .membership column _ s⟩ : Predicate Hole)) hslots

end Predicate

/-- The query without a table, or the query over one. -/
def Query.start (table : Option String) : Query α := table.elim .blank .ofTable

/-- The values of the members of a query, in the order in which the members were attached. -/
def Query.attachedArgs (q : Query α) : List α := q.members.flatMap fun m => m.2.args

namespace Step

/-- The predicates that a step records, with the values in their slots. -/
def predicates : Step α → List (Predicate α)
  | .filter p => [p]
  | .filterText connective column operator a =>
    match Comparison.ofText? operator with
    | some op => [⟨connective, .compare column op a⟩]
    | none => []
  | _ => []

def attached : Step α → List (SetOp × Query α)
  | .combine op members => members.map fun m => (op, m)
  | _ => []

/-- What a step attaches as a payload, or why it does not; no other step brings a payload. -/
def offered? : Step α → Option (Except StepFault (Payload α))
  | .rows records => some (Payload.ofRows records)
  | .assignments record => some (Payload.ofAssignments record)
  | .upsert insert update => some (Payload.ofUpsert insert update)
  | _ => none

/-- The payload that a step brings in order. -/
def payload? (s : Step α) : Option (Payload α) := s.offered?.bind Except.toOption

end Step

/-- The payload of the first of a sequence of steps that brings one in order. -/
def Payload.ofSteps (steps : List (Step α)) : Payload α :=
  (steps.findSome? Step.payload?).getD .empty

/-- The predicates that a sequence of steps records, with the values in their slots. -/
def Predicate.ofSteps (steps : List (Step α)) : List (Predicate α) :=
  steps.flatMap Step.predicates

/-- What steps leave in a query.  The arguments are the payload's values, then the values of the
predicates in the order of the steps, then the values of the members. -/
structure Recorded [HasNull α] (steps : List (Step α)) (q : Query α) : Prop where
  payload : q.payload = Payload.ofSteps steps
  filters : q.block.filters = (Predicate.ofSteps steps).map Predicate.recorded
  members : q.members = steps.flatMap Step.attached
  args : q.args =
    q.payload.values ++ (Predicate.ofSteps steps).flatMap Predicate.slots ++ q.attachedArgs
  memberArgs : q.memberArgs = q.attachedArgs.length

namespace Query

theorem build_concat [HasNull α] (q : Query α) (steps : List (Step α)) (s : Step α) :
    q.build (steps ++ [s]) = (q.build steps).apply s := by
  simp [build]

/-- Values bound one after the other land side by side in front of the members' values. -/
theorem foldl_bind {q : Query α} {front back : List α} (hargs : q.args = front ++ back)
    (hback : q.memberArgs = back.length) (values : List α) :
    values.foldl bind q = { q with args := front ++ values ++ back } := by
  induction values generalizing q front with
  | nil =>
    cases q
    simpa using hargs
  | cons a values ih =>
    have hbind : q.bind a = { q with args := front ++ a :: back } := by
      rw [bind, hargs, hback, Args.insertBeforeLast_append]
    have h := @ih (q.bind a) (front ++ [a]) (by simp [hbind]) (by simp [hbind, hback])
    rw [List.foldl_cons, h, hbind]
    simp

theorem foldl_bind_pushFilter (q : Query α) (values : List α) (f : Filter) :
    values.foldl bind (q.pushFilter f) = (values.foldl bind q).pushFilter f := by
  induction values generalizing q with
  | nil => rfl
  | cons a values ih => exact ih (q.bind a)

/-- Every bound value makes the arguments longer by one, wherever it lands. -/
theorem length_args_foldl_bind (q : Query α) (values : List α) :
    (values.foldl bind q).args.length = q.args.length + values.length := by
  induction values generalizing q with
  | nil => rfl
  | cons a values ih =>
    rw [List.foldl_cons, ih, bind, Args.insertBeforeLast,
      List.length_insertIdx_of_le_length (Nat.sub_le _ _), List.length_cons]
    omega

/-- Each of the step functions records its condition and binds the values in its slots; the count
that `membership` takes from the arguments is the number of these. -/
theorem filter_eq_foldl_bind (q : Query α) (p : Predicate α) :
    q.filter p = p.slots.foldl bind (q.pushFilter p.recorded) := by
  obtain ⟨connective, condition⟩ := p
  cases condition with
  | raw | compare | nullness => rfl
  | between _ negated => cases negated <;> rfl
  | membership column negated values =>
    have hcount : (values.foldl bind q).args.length - q.args.length = values.length := by
      rw [length_args_foldl_bind, Nat.add_sub_cancel_left]
    rw [foldl_bind_pushFilter]
    simp only [filter, membership, hcount]
    rfl

theorem filterText_eq (q : Query α) (connective : Connective) (column operator : String) (a : α) :
    q.filterText connective column operator a =
      match Comparison.ofText? operator with
      | some op => q.filter ⟨connective, .compare column op a⟩
      | none => q.refuse (.unsupportedOperator operator column) := rfl

/-- A predicate is recorded without its values, which are bound in front of the members'. -/
theorem filter_eq {q : Query α} {front back : List α} (hargs : q.args = front ++ back)
    (hback : q.memberArgs = back.length) (p : Predicate α) :
    q.filter p =
      { q with
        block := { q.block with filters := q.block.filters ++ [p.recorded] }
        args := front ++ p.slots ++ back } := by
  rw [filter_eq_foldl_bind]
  exact foldl_bind (q := q.pushFilter p.recorded) hargs hback p.slots

theorem combine_eq (q : Query α) (op : SetOp) (members : List (Query α)) :
    q.combine op members =
      { q with
        members := q.members ++ members.map fun m => (op, m)
        args := q.args ++ members.flatMap Query.args
        memberArgs := q.memberArgs + (members.flatMap Query.args).length } := by
  induction members generalizing q with
  | nil =>
    cases q
    simp [combine]
  | cons m members ih =>
    have h := ih (q.attach op m)
    rw [combine] at h ⊢
    rw [List.foldl_cons, h]
    simp [attach, Args.extend, Nat.add_assoc]

theorem carry_ok [HasNull α] {q : Query α} (h : q.payload.kind = .empty) (payload : Payload α) :
    q.carry (.ok payload) = { q with payload, args := q.args.prepend payload.values } := by
  unfold carry
  rw [h]

theorem carry_error [HasNull α] {q : Query α} (h : q.payload.kind = .empty) (fault : StepFault) :
    q.carry (.error fault) = q.refuse fault := by
  unfold carry
  rw [h]

theorem carry_again [HasNull α] {q : Query α} (h : q.payload.kind ≠ .empty)
    (offered : Except StepFault (Payload α)) :
    q.carry offered = q.refuse (.payloadAttached q.payload.kind) := by
  unfold carry
  cases hkind : q.payload.kind <;> first | rfl | exact absurd hkind h

/-- A step that offers a payload carries what it offers. -/
theorem apply_of_offered [HasNull α] {s : Step α} {offered : Except StepFault (Payload α)}
    (h : s.offered? = some offered) (q : Query α) : q.apply s = q.carry offered := by
  cases s <;> simp only [Step.offered?, reduceCtorEq, Option.some.injEq] at h <;> subst h <;> rfl

end Query

theorem Payload.kind_eq_empty {payload : Payload α} : payload.kind = .empty ↔ payload = .empty := by
  cases payload <;> simp [kind]

theorem Record.isEmpty_iff {r : Record α} : r.isEmpty ↔ r.columns = [] := by
  rw [isEmpty, columns, List.map_eq_nil_iff, List.isEmpty_iff]

/-- A payload that is not empty, with columns in each of its records that names columns. -/
def Payload.Filled : Payload α → Prop
  | .empty => False
  | .rows [] => False
  | .rows (first :: _) => first.columns ≠ []
  | .assignments record => record.columns ≠ []
  | .upsert insert update => insert.columns ≠ [] ∧ update.columns ≠ []

theorem Payload.Filled.kind {payload : Payload α} (h : payload.Filled) : payload.kind ≠ .empty := by
  cases payload with
  | empty => exact h.elim
  | _ => exact PayloadKind.noConfusion

theorem Step.filled_of_payload? {s : Step α} {payload : Payload α}
    (h : s.payload? = some payload) : payload.Filled := by
  obtain ⟨offered, hs, hok⟩ := Option.bind_eq_some_iff.mp h
  cases offered with
  | error => cases hok
  | ok carried =>
    cases hok
    cases s with
    | rows records =>
      obtain _ | ⟨first, rest⟩ := records
      · simp [offered?, Payload.ofRows] at hs
      simp only [offered?, Payload.ofRows, Option.some.injEq] at hs
      split at hs
      · cases hs
      rename_i hfirst
      split at hs <;> cases hs
      exact hfirst ∘ Record.isEmpty_iff.mpr
    | assignments record =>
      simp only [offered?, Payload.ofAssignments, Option.some.injEq] at hs
      split at hs <;> cases hs
      rename_i hempty
      exact hempty ∘ Record.isEmpty_iff.mpr
    | upsert insert update =>
      simp only [offered?, Payload.ofUpsert, Option.some.injEq] at hs
      split at hs <;> cases hs
      rename_i hempty
      rw [Bool.or_eq_true, not_or] at hempty
      exact ⟨hempty.1 ∘ Record.isEmpty_iff.mpr, hempty.2 ∘ Record.isEmpty_iff.mpr⟩
    | _ => cases hs

theorem Payload.filled_ofSteps {steps : List (Step α)} (h : (ofSteps steps).kind ≠ .empty) :
    (ofSteps steps).Filled := by
  cases hsteps : steps.findSome? Step.payload? with
  | none => exact absurd (by rw [ofSteps, hsteps]; rfl) h
  | some payload =>
    obtain ⟨s, _, hs⟩ := List.exists_of_findSome?_eq_some hsteps
    rw [ofSteps, hsteps]
    exact Step.filled_of_payload? hs

/-- A further step only brings a payload when no step before it did. -/
theorem Payload.ofSteps_concat (steps : List (Step α)) (s : Step α) :
    ofSteps (steps ++ [s]) =
      if (ofSteps steps).kind = .empty then s.payload?.getD .empty else ofSteps steps := by
  cases h : steps.findSome? Step.payload? with
  | none => cases hs : s.payload? <;> simp [ofSteps, List.findSome?_append, h, kind, hs]
  | some carried =>
    obtain ⟨before, _, hcarried⟩ := List.exists_of_findSome?_eq_some h
    simp [ofSteps, List.findSome?_append, h, (Step.filled_of_payload? hcarried).kind]

theorem Payload.ofSteps_concat_none {s : Step α} (h : s.payload? = none) (steps : List (Step α)) :
    ofSteps (steps ++ [s]) = ofSteps steps := by
  rw [ofSteps_concat, h]
  split
  · rename_i hkind
    exact (kind_eq_empty.mp hkind).symm
  · rfl

theorem Predicate.ofSteps_concat (steps : List (Step α)) (s : Step α) :
    ofSteps (steps ++ [s]) = ofSteps steps ++ s.predicates := by
  simp [ofSteps]

namespace Recorded

variable [HasNull α] {steps : List (Step α)} {q : Query α} {s : Step α}

theorem start (table : Option String) : Recorded [] (Query.start table : Query α) := by
  cases table <;> exact ⟨rfl, rfl, rfl, rfl, rfl⟩

/-- A step that records nothing and leaves alone what others recorded. -/
theorem of_unchanged (h : Recorded steps q) {q' : Query α}
    (hpayload : Payload.ofSteps (steps ++ [s]) = Payload.ofSteps steps)
    (hpredicates : s.predicates = []) (hattached : s.attached = [])
    (payload : q'.payload = q.payload) (filters : q'.block.filters = q.block.filters)
    (members : q'.members = q.members) (args : q'.args = q.args)
    (memberArgs : q'.memberArgs = q.memberArgs) : Recorded (steps ++ [s]) q' := by
  have hms : q'.attachedArgs = q.attachedArgs := by rw [Query.attachedArgs, members]; rfl
  constructor
  · rw [payload, h.payload, hpayload]
  · rw [filters, h.filters, Predicate.ofSteps_concat, hpredicates, List.append_nil]
  · rw [members, h.members]
    simp [hattached]
  · rw [args, h.args, payload, Predicate.ofSteps_concat, hpredicates, List.append_nil, hms]
  · rw [memberArgs, h.memberArgs, hms]

/-- A recorded predicate, whose values are bound behind those of the predicates before it. -/
theorem filter (h : Recorded steps q) {p : Predicate α} (hpayload : s.payload? = none)
    (hpredicates : s.predicates = [p]) (hattached : s.attached = []) :
    Recorded (steps ++ [s]) (q.filter p) := by
  rw [Query.filter_eq h.args h.memberArgs p]
  constructor
  · rw [Payload.ofSteps_concat_none hpayload]
    exact h.payload
  · simp [Predicate.ofSteps_concat, hpredicates, h.filters]
  · simp [hattached, h.members]
  · simp [Predicate.ofSteps_concat, hpredicates]
    rfl
  · exact h.memberArgs

/-- Attached members, whose values are bound behind all others. -/
theorem combine (h : Recorded steps q) (op : SetOp) (members : List (Query α)) :
    Recorded (steps ++ [.combine op members]) (q.combine op members) := by
  rw [Query.combine_eq]
  constructor
  · rw [Payload.ofSteps_concat_none rfl]
    exact h.payload
  · simpa [Predicate.ofSteps_concat, Step.predicates] using h.filters
  · simp [Step.attached, h.members]
  · simp [Predicate.ofSteps_concat, Step.predicates, h.args, Query.attachedArgs, List.flatMap_map]
  · simp [h.memberArgs, Query.attachedArgs, List.flatMap_map]

/-- An offered payload, whose values are bound in front of all others unless it is refused. -/
theorem carry (h : Recorded steps q) {offered : Except StepFault (Payload α)}
    (hoffered : s.offered? = some offered) (hpredicates : s.predicates = [])
    (hattached : s.attached = []) : Recorded (steps ++ [s]) (q.carry offered) := by
  have hs : s.payload? = offered.toOption := by rw [Step.payload?, hoffered]; rfl
  by_cases hkind : q.payload.kind = .empty
  · have hcarried := Payload.ofSteps_concat steps s
    rw [← h.payload, if_pos hkind, hs] at hcarried
    cases offered with
    | error fault =>
      rw [Query.carry_error hkind]
      exact h.of_unchanged (Payload.ofSteps_concat_none hs _) hpredicates hattached rfl rfl rfl rfl
        rfl
    | ok payload =>
      rw [Query.carry_ok hkind]
      constructor
      · exact hcarried.symm
      · simpa [Predicate.ofSteps_concat, hpredicates] using h.filters
      · simp [hattached, h.members]
      · simp [Predicate.ofSteps_concat, hpredicates, Args.prepend, h.args,
          Payload.kind_eq_empty.mp hkind, Payload.values]
        rfl
      · exact h.memberArgs
  · have hsame : Payload.ofSteps (steps ++ [s]) = Payload.ofSteps steps := by
      rw [Payload.ofSteps_concat, ← h.payload, if_neg hkind]
    rw [Query.carry_again hkind]
    exact h.of_unchanged hsame hpredicates hattached rfl rfl rfl rfl rfl

/-- The predicates of the statements that a query is written as. -/
theorem predicates (h : Recorded steps q) :
    q.body.predicates = (Predicate.ofSteps steps).map Predicate.withHoles := by
  rw [Query.body, Block.body, h.filters, List.map_map]
  exact List.map_congr_left fun p _ => p.predicate_recorded

theorem apply (h : Recorded steps q) (s : Step α) : Recorded (steps ++ [s]) (q.apply s) := by
  cases hs : s.offered? with
  | some offered =>
    rw [Query.apply_of_offered hs]
    refine h.carry hs ?_ ?_ <;> cases s <;> first | rfl | cases hs
  | none =>
    cases s with
    | filter p => exact h.filter rfl rfl rfl
    | combine op members => exact h.combine op members
    | filterText connective column operator a =>
      rw [Query.apply, Query.filterText_eq]
      cases hop : Comparison.ofText? operator with
      | some op => exact h.filter rfl (by simp [Step.predicates, hop]) rfl
      | none =>
        exact h.of_unchanged (Payload.ofSteps_concat_none rfl _) (by simp [Step.predicates, hop])
          rfl rfl rfl rfl rfl rfl
    | rows | assignments | upsert => cases hs
    | _ => exact h.of_unchanged (Payload.ofSteps_concat_none rfl _) rfl rfl rfl rfl rfl rfl rfl

theorem build (table : Option String) (steps : List (Step α)) :
    Recorded steps ((Query.start table).build steps) := by
  induction steps using List.reverseRecOn with
  | nil => exact start table
  | append_singleton steps s ih =>
    rw [Query.build_concat]
    exact ih.apply s

end Recorded

end BoundSql
