import BoundSql.Proofs.Query.Acceptance
import BoundSql.Proofs.Query.Interleaving
import BoundSql.Proofs.Query.Payloads
import BoundSql.Proofs.Session.Protocol

/-! Refused steps.  `Query.Refuses` says which steps make no sense on a query, and why.  Such a step
leaves nothing behind but its refusal, which no later step takes back, and from then on nothing is
compiled or sent from the query or from any query that has it inside (`Query.refused`). -/

namespace BoundSql

variable {σ α β ρ : Type}

/-- Which steps a query refuses.  What a payload is like matters only while the query has none. -/
inductive Query.Refuses (q : Query α) : Step α → StepFault → Prop
  | operator {connective : Connective} {column operator : String} {a : α}
    (h : ∀ op : Comparison, Comparison.tokens operator ∉ op.spellings) :
    Refuses q (.filterText connective column operator a) (.unsupportedOperator operator column)
  | again {s : Step α} (hs : s.group = .payload) (h : q.payload ≠ .empty) :
    Refuses q s (.payloadAttached q.payload.kind)
  | noRecord (h : q.payload = .empty) : Refuses q (.rows []) .noRecord
  | noColumns {first : Record α} {rest : List (Record α)} (h : q.payload = .empty)
    (hfirst : first.columns = []) : Refuses q (.rows (first :: rest)) .noColumns
  | strayColumn {first r : Record α} {before after : List (Record α)} {column : String}
    (h : q.payload = .empty) (hfirst : first.columns ≠ [])
    (hbefore : ∀ b ∈ before, b.columns ⊆ first.columns) (hr : first.Stray r column) :
    Refuses q (.rows (first :: (before ++ r :: after))) (.strayColumn (before.length + 2) column)
  | noAssignments {record : Record α} (h : q.payload = .empty) (hrecord : record.columns = []) :
    Refuses q (.assignments record) .noAssignments
  | noUpsertColumns {insert update : Record α} (h : q.payload = .empty)
    (hcolumns : insert.columns = [] ∨ update.columns = []) :
    Refuses q (.upsert insert update) .noUpsertColumns

/-! ### Refusals by payload -/

namespace Payload

theorem refusal?_of_empty {carried : PayloadKind} (h : carried = .empty)
    {offered : Except StepFault (Payload α)} {fault : StepFault} :
    refusal? carried offered = some fault ↔ offered = .error fault := by
  unfold refusal?
  rw [if_pos h]
  cases offered <;> simp

theorem refusal?_again {carried : PayloadKind} (h : carried ≠ .empty)
    (offered : Except StepFault (Payload α)) :
    refusal? carried offered = some (.payloadAttached carried) := if_neg h

end Payload

theorem Comparison.ofText?_eq_none_iff {operator : String} :
    ofText? operator = none ↔ ∀ op : Comparison, tokens operator ∉ op.spellings := by
  simp only [Option.eq_none_iff_forall_ne_some, ne_eq, ofText?_eq_some_iff]

theorem Step.exists_offered {s : Step α} (h : s.group = .payload) :
    ∃ offered, s.offered? = some offered := by
  cases s <;> first | exact ⟨_, rfl⟩ | cases h

/-! ### Refused steps -/

namespace Query

/-- Whether a step was refused on a query or on one inside it. -/
def Spoiled (q : Query α) : Prop := ∃ n ∈ q.nodes, n.fault ≠ none

theorem Spoiled.exists_findSome? {q : Query α} (h : q.Spoiled) :
    ∃ fault, q.nodes.findSome? (·.fault) = some fault := by
  obtain ⟨n, hn, hfault⟩ := h
  rw [← Option.isSome_iff_exists, List.findSome?_isSome_iff]
  exact ⟨n, hn, Option.isSome_iff_ne_none.mpr hfault⟩

theorem compileAt_of_findSome? {q : Query α} {fault : StepFault}
    (h : q.nodes.findSome? (·.fault) = some fault) (entry : EntryPoint) :
    q.compileAt entry = .error (.step fault) := by
  rw [compileAt_eq, compileWith, firstFault?_eq_findSome?, h]

/-- A payload out of order is refused by a query without one. -/
theorem refuses_of_offered {q : Query α} {s : Step α} {fault : StepFault}
    (hs : s.offered? = some (.error fault)) (h : q.payload = .empty) : q.Refuses s fault := by
  cases s with
  | rows records =>
    obtain _ | ⟨first, rest⟩ := records
    · cases hs
      exact .noRecord h
    by_cases hfirst : first.columns = []
    · rw [Step.offered?, Payload.ofRows_noColumns hfirst] at hs
      cases hs
      exact .noColumns h hfirst
    · rw [Step.offered?, Payload.ofRows_cons hfirst] at hs
      cases hstray : strayColumn? first 2 rest with
      | none => simp [hstray] at hs
      | some found =>
        obtain ⟨number, column⟩ := found
        obtain ⟨before, r, after, rfl, hbefore, hr, rfl⟩ := strayColumn?_eq_some_iff.mp hstray
        rw [hstray, Nat.add_comm] at hs
        cases hs
        exact .strayColumn h hfirst hbefore hr
  | assignments record =>
    obtain ⟨hrecord, rfl⟩ := Payload.ofAssignments_error_iff.mp (Option.some.inj hs)
    exact .noAssignments h hrecord
  | upsert insert update =>
    obtain ⟨hcolumns, rfl⟩ := Payload.ofUpsert_error_iff.mp (Option.some.inj hs)
    exact .noUpsertColumns h hcolumns
  | _ => cases hs

variable [HasNull α]

theorem Refuses.stepRefusal? {q : Query α} {s : Step α} {fault : StepFault}
    (h : q.Refuses s fault) : q.stepRefusal? s = some fault := by
  have hoffers : ∀ {s : Step α} {offered}, s.offered? = some offered → q.payload = .empty →
      offered = .error fault → q.stepRefusal? s = some fault := by
    intro s offered hs hpayload hoffered
    rw [stepRefusal?_of_offered hs]
    exact (Payload.refusal?_of_empty (Payload.kind_eq_empty.mpr hpayload)).mpr hoffered
  cases h with
  | operator h =>
    rw [stepRefusal?_filterText, Comparison.ofText?_eq_none_iff.mpr h]
    rfl
  | again hs h =>
    obtain ⟨offered, hoffered⟩ := Step.exists_offered hs
    rw [stepRefusal?_of_offered hoffered]
    exact Payload.refusal?_again (mt Payload.kind_eq_empty.mp h) offered
  | noRecord h => exact hoffers rfl h rfl
  | noColumns h hfirst => exact hoffers rfl h (Payload.ofRows_noColumns hfirst _)
  | @strayColumn first r before after column h hfirst hbefore hr =>
    refine hoffers rfl h ?_
    rw [Payload.ofRows_cons hfirst,
      strayColumn?_eq_some_iff.mpr ⟨before, r, after, rfl, hbefore, hr, Nat.add_comm _ _⟩]
  | noAssignments h hrecord =>
    exact hoffers rfl h (Payload.ofAssignments_error_iff.mpr ⟨hrecord, rfl⟩)
  | noUpsertColumns h hcolumns =>
    exact hoffers rfl h (Payload.ofUpsert_error_iff.mpr ⟨hcolumns, rfl⟩)

theorem refuses_iff {q : Query α} {s : Step α} {fault : StepFault} :
    q.Refuses s fault ↔ q.stepRefusal? s = some fault := by
  refine ⟨Refuses.stepRefusal?, fun h => ?_⟩
  cases hs : s.offered? with
  | some offered =>
    rw [stepRefusal?_of_offered hs] at h
    by_cases hpayload : q.payload = .empty
    · rw [Payload.refusal?_of_empty (Payload.kind_eq_empty.mpr hpayload)] at h
      exact refuses_of_offered (h ▸ hs) hpayload
    · rw [Payload.refusal?_again (mt Payload.kind_eq_empty.mp hpayload)] at h
      cases h
      exact .again (Step.group_of_offered? hs) hpayload
  | none =>
    cases s with
    | rows | assignments | upsert => cases hs
    | filterText connective column operator a =>
      rw [stepRefusal?_filterText] at h
      cases hop : Comparison.ofText? operator with
      | some op => simp [hop] at h
      | none =>
        rw [hop] at h
        cases h
        exact .operator (Comparison.ofText?_eq_none_iff.mp hop)
    | filter p => rw [stepRefusal?_filter] at h; cases h
    | combine op members => rw [stepRefusal?_combine] at h; cases h
    | _ => cases h

/-- A refused step leaves nothing behind but its refusal. -/
theorem Refuses.apply {q : Query α} {s : Step α} {fault : StepFault} (h : q.Refuses s fault) :
    q.apply s = q.refuse fault := by
  have hrefusal := h.stepRefusal?
  cases hs : s.offered? with
  | some offered =>
    rw [stepRefusal?_of_offered hs] at hrefusal
    rw [apply_of_offered hs]
    by_cases hkind : q.payload.kind = .empty
    · rw [(Payload.refusal?_of_empty hkind).mp hrefusal, carry_error hkind]
    · rw [Payload.refusal?_again hkind, Option.some.injEq] at hrefusal
      rw [carry_again hkind, hrefusal]
  | none =>
    cases h with
    | operator h => rw [Query.apply, filterText, Comparison.ofText?_eq_none_iff.mpr h]
    | again hgroup =>
      obtain ⟨offered, hoffered⟩ := Step.exists_offered hgroup
      rw [hoffered] at hs
      cases hs
    | _ => cases hs

/-- A step that is not refused leaves the refusals before it alone. -/
theorem fault_apply_of_accepted {q : Query α} {s : Step α} (h : ∀ fault, ¬ q.Refuses s fault) :
    (q.apply s).fault = q.fault := by
  have hnone : q.stepRefusal? s = none :=
    Option.eq_none_iff_forall_ne_some.mpr fun fault hs => h fault (refuses_iff.mpr hs)
  rw [fault_apply, hnone, Option.or_none]

theorem fault_build_of_some {q : Query α} {fault : StepFault} (h : q.fault = some fault)
    (steps : List (Step α)) : (q.build steps).fault = some fault := by
  rw [fault_build, h, Option.some_or]

/-! ### Refused steps inside a query -/

/-- Members stay, with all that is inside them. -/
theorem nodesIn_subset_apply (q : Query α) (s : Step α) :
    nodesIn q.members ⊆ nodesIn (q.apply s).members := by
  rw [members_apply, nodesIn_eq, nodesIn_eq, List.flatMap_append]
  exact List.subset_append_left _ _

theorem Spoiled.apply {q : Query α} (h : q.Spoiled) (s : Step α) : (q.apply s).Spoiled := by
  obtain ⟨n, hn, hfault⟩ := h
  rw [nodes_eq, List.mem_cons] at hn
  obtain rfl | hn := hn
  · refine ⟨n.apply s, by rw [nodes_eq]; exact List.mem_cons_self, ?_⟩
    rw [fault_apply]
    simp [hfault]
  · refine ⟨n, ?_, hfault⟩
    rw [nodes_eq]
    exact List.mem_cons_of_mem _ (q.nodesIn_subset_apply s hn)

theorem Spoiled.build {q : Query α} (h : q.Spoiled) (steps : List (Step α)) :
    (q.build steps).Spoiled := by
  induction steps generalizing q with
  | nil => exact h
  | cons s steps ih => exact ih (h.apply s)

end Query

namespace Request

/-- The steps that a request takes on a query before it asks for a statement. -/
def steps (r : Request α ρ β) (q : Query α) : List (Step α) :=
  match r with
  | .getRows | .fetchAll _ | .count | .exists | .delete => []
  | .getRow | .fetchOne _ | .fetchOpt _ =>
    if q.members.isEmpty then [.limit 1] else [.outerLimit 1]
  | .insert records | .replace records => [.rows records]
  | .insertGetId record idColumn => [.returning [idColumn], .rows [record]]
  | .update record => [.assignments record]
  | .insertUpdate row assigned => [.upsert row assigned]

def entry : Request α ρ β → EntryPoint
  | .getRows | .getRow | .fetchAll _ | .fetchOne _ | .fetchOpt _ => .statement .select
  | .count => .count
  | .exists => .exists
  | .insert _ | .insertGetId .. => .statement .insert
  | .replace _ => .statement .replace
  | .update _ => .statement .update
  | .insertUpdate .. => .statement .upsert
  | .delete => .statement .delete

theorem compiled_eq [HasNull α] (r : Request α ρ β) (q : Query α) :
    r.compiled q = (q.build (r.steps q)).compileAt r.entry := by
  cases r with
  | getRow | fetchOne | fetchOpt =>
    rw [compiled, Query.firstRowOnly, steps]
    split <;> rfl
  | _ => rfl

end Request

/-- A step that makes no sense on a query changes nothing but the refusal that the query keeps, and
only if it kept none; no step takes a refusal back or puts another in its place.  A refusal on a
query or inside it, whatever steps follow, makes every compilation and every request fail, before
anything is sent or logged, with the message of the first refusal: the query's own, or else the
first one inside it. -/
theorem Query.refused [HasNull α] (q : Query α) :
    (∀ s fault, q.Refuses s fault → q.apply s = { q with fault := q.fault.or (some fault) }) ∧
    (∀ s, (∀ fault, ¬ q.Refuses s fault) → (q.apply s).fault = q.fault) ∧
    (∀ fault, q.fault = some fault → ∀ steps, (q.build steps).fault = some fault) ∧
    ((∃ n ∈ q.nodes, n.fault ≠ none) → ∀ steps,
      let p := q.build steps
      (∃ fault, p.nodes.findSome? (·.fault) = some fault ∧
        ∀ entry, ∃ e, p.compileAt entry = .error e ∧ e.toError = .validation fault.message) ∧
      ∀ {ρ β σ : Type} [DriverRow ρ] (r : Request α ρ β) (client : Client σ α ρ) (state : σ),
        ∃ fault, (p.build (r.steps p)).nodes.findSome? (·.fault) = some fault ∧
          r.run p client state = ⟨.error (.validation fault.message), state, []⟩) := by
  refine ⟨fun s fault h => h.apply, fun s h => fault_apply_of_accepted h,
    fun fault h steps => fault_build_of_some h steps, fun h steps => ?_⟩
  have hspoiled : (q.build steps).Spoiled := Spoiled.build h steps
  refine ⟨?_, fun r client state => ?_⟩
  · obtain ⟨fault, hfault⟩ := hspoiled.exists_findSome?
    exact ⟨fault, hfault, fun entry => ⟨_, compileAt_of_findSome? hfault entry, rfl⟩⟩
  · obtain ⟨fault, hfault⟩ := (hspoiled.build (r.steps _)).exists_findSome?
    refine ⟨fault, hfault, ?_⟩
    have hcompiled := r.compiled_eq (q.build steps)
    rw [compileAt_of_findSome? hfault] at hcompiled
    exact Request.run_error hcompiled client state

namespace Query

def unknownOperator : Step Value := .filterText .and "x" "~" (.int8 1)

/-- A member of a member on which a step was refused. -/
def spoiledInside : Query Value :=
  (ofTable "a").build
    [.combine .union [(ofTable "b").build
      [.combine .unionAll [(ofTable "c").build [unknownOperator]]]]]

theorem refused_spoiledInside :
    (ofTable "c").Refuses unknownOperator (.unsupportedOperator "~" "x") ∧
      (ofTable "c").apply unknownOperator =
        { ofTable "c" with fault := some (.unsupportedOperator "~" "x") } ∧
      (∃ n ∈ spoiledInside.nodes, n.fault ≠ none) ∧ spoiledInside.fault = none ∧
      (∃ e, (spoiledInside.build [.limit 1]).compileAt .count = .error e ∧
        e.toError = .validation "unsupported comparison operator '~' for column 'x'") ∧
      ∀ {ρ σ : Type} [DriverRow ρ] (client : Client σ Value ρ) (state : σ),
        (Request.insert [] : Request Value ρ Unit).run (spoiledInside.build [.limit 1]) client
          state = ⟨.error (.validation "at least one record is required"), state, []⟩ := by
  have hrefuses : (ofTable "c").Refuses unknownOperator (.unsupportedOperator "~" "x") :=
    .operator (by intro op; cases op <;> decide)
  have hspoiled : ∃ n ∈ spoiledInside.nodes, n.fault ≠ none :=
    ⟨(ofTable "c").build [unknownOperator], .tail _ (.tail _ (.head _)), by decide⟩
  refine ⟨hrefuses, (refused _).1 _ _ hrefuses, hspoiled, rfl, ?_, fun client state => ?_⟩
  · obtain ⟨fault, hfault, hcompile⟩ := ((refused spoiledInside).2.2.2 hspoiled [.limit 1]).1
    have hfirst : .unsupportedOperator "~" "x" = fault := Option.some.inj hfault
    subst hfirst
    exact hcompile .count
  · obtain ⟨fault, hfault, hrun⟩ :=
      ((refused spoiledInside).2.2.2 hspoiled [.limit 1]).2 (Request.insert []) client state
    have hfirst : .noRecord = fault := Option.some.inj hfault
    subst hfirst
    exact hrun

end Query

end BoundSql
