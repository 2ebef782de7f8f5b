import BoundSql.Proofs.Query.Binding

/-! Steps in another order.  `Step.group` sorts the steps by the part of a query that they write.
A step leaves the parts of other groups alone (`Query.sameIn_apply_of_ne`), and what it leaves in
its own part depends on that part only (`Query.SameIn.apply`).  So the order of steps of different
groups leaves no trace but in the first refused step (`Query.build_interleaved`). -/

namespace BoundSql

variable {α : Type}

inductive StepGroup where
  | tables
  | select
  | distinct
  | groupBy
  | order
  | limit
  | offset
  | outerOrder
  | outerLimit
  | outerOffset
  | onConflict
  | returning
  | placeholder
  | joins
  | members
  | predicates
  | payload
  deriving DecidableEq

namespace Step

def group : Step α → StepGroup
  | .tables _ => .tables
  | .select _ => .select
  | .distinct => .distinct
  | .groupBy _ => .groupBy
  | .orderBy _ => .order
  | .limit _ => .limit
  | .offset _ => .offset
  | .outerOrderBy _ => .outerOrder
  | .outerLimit _ => .outerLimit
  | .outerOffset _ => .outerOffset
  | .onConflict _ => .onConflict
  | .returning _ => .returning
  | .placeholder _ => .placeholder
  | .join _ => .joins
  | .combine _ _ => .members
  | .filter _ | .filterText .. => .predicates
  | .rows _ | .assignments _ | .upsert .. => .payload

theorem group_of_offered? {s : Step α} {offered : Except StepFault (Payload α)}
    (h : s.offered? = some offered) : s.group = .payload := by
  cases s <;> first | rfl | cases h

end Step

namespace StepGroup

/-- The steps of a group among other steps. -/
def among (g : StepGroup) (steps : List (Step α)) : List (Step α) :=
  steps.filter fun s => s.group = g

theorem among_cons_of_eq {g : StepGroup} {s : Step α} (h : s.group = g) (steps : List (Step α)) :
    g.among (s :: steps) = s :: g.among steps :=
  List.filter_cons_of_pos (by simpa using h)

theorem among_cons_of_ne {g : StepGroup} {s : Step α} (h : s.group ≠ g) (steps : List (Step α)) :
    g.among (s :: steps) = g.among steps :=
  List.filter_cons_of_neg (by simpa using h)

end StepGroup

/-- What an offered payload is refused for beside a payload of a kind. -/
def Payload.refusal? (carried : PayloadKind) (offered : Except StepFault (Payload α)) :
    Option StepFault :=
  if carried = .empty then
    match offered with
    | .ok _ => none
    | .error fault => some fault
  else some (.payloadAttached carried)

namespace Query

/-- Whether two queries agree in the part that the steps of a group write, the arguments apart. -/
def SameIn (q r : Query α) : StepGroup → Prop
  | .tables => q.block.tables = r.block.tables
  | .select => q.block.columns = r.block.columns
  | .distinct => q.block.distinct = r.block.distinct
  | .groupBy => q.block.groups = r.block.groups
  | .order => q.tail.order = r.tail.order
  | .limit => q.tail.limit = r.tail.limit
  | .offset => q.tail.offset = r.tail.offset
  | .outerOrder => q.outer.order = r.outer.order
  | .outerLimit => q.outer.limit = r.outer.limit
  | .outerOffset => q.outer.offset = r.outer.offset
  | .onConflict => q.conflictTarget = r.conflictTarget
  | .returning => q.returning = r.returning
  | .placeholder => q.style = r.style
  | .joins => q.block.joins = r.block.joins
  | .members => q.members = r.members
  | .predicates => q.block.filters = r.block.filters
  | .payload => q.payload = r.payload

theorem SameIn.refl (q : Query α) (g : StepGroup) : q.SameIn q g := by
  cases g <;> rfl

theorem SameIn.trans {q r t : Query α} {g : StepGroup} (h : q.SameIn r g) (h' : r.SameIn t g) :
    q.SameIn t g := by
  cases g <;> exact Eq.trans h h'

theorem SameIn.symm {q r : Query α} {g : StepGroup} (h : q.SameIn r g) : r.SameIn q g := by
  cases g <;> exact Eq.symm h

theorem exists_foldl_bind (q : Query α) (values : List α) :
    ∃ args, values.foldl bind q = { q with args } := by
  induction values generalizing q with
  | nil =>
    cases q
    exact ⟨_, rfl⟩
  | cons a values ih =>
    obtain ⟨args, h⟩ := ih (q.bind a)
    exact ⟨args, h⟩

/-- A predicate changes the filters and the arguments. -/
theorem exists_filter (q : Query α) (p : Predicate α) :
    ∃ args, q.filter p =
      { q with
        block := { q.block with filters := q.block.filters ++ [p.recorded] }
        args } := by
  rw [filter_eq_foldl_bind]
  exact exists_foldl_bind (q.pushFilter p.recorded) p.slots

theorem filters_filter (q : Query α) (p : Predicate α) :
    (q.filter p).block.filters = q.block.filters ++ [p.recorded] := by
  obtain ⟨args, hfilter⟩ := q.exists_filter p
  rw [hfilter]

theorem sameIn_filter (q : Query α) (p : Predicate α) {g : StepGroup} (h : g ≠ .predicates) :
    (q.filter p).SameIn q g := by
  obtain ⟨args, hfilter⟩ := q.exists_filter p
  rw [hfilter]
  cases g <;> first | rfl | exact absurd rfl h

theorem sameIn_refuse (q : Query α) (fault : StepFault) (g : StepGroup) :
    (q.refuse fault).SameIn q g := by
  cases g <;> rfl

theorem attached_of_group {s : Step α} (h : s.group ≠ .members) : s.attached = [] := by
  cases s <;> first | rfl | exact absurd rfl h

section Step

variable [HasNull α]

/-- An offered payload changes the payload, the arguments and the refused step. -/
theorem exists_carry (q : Query α) (offered : Except StepFault (Payload α)) :
    ∃ payload args fault, q.carry offered = { q with payload, args, fault } := by
  by_cases hkind : q.payload.kind = .empty
  · cases offered with
    | ok payload => exact ⟨_, _, _, carry_ok hkind payload⟩
    | error fault => exact ⟨_, _, _, carry_error hkind fault⟩
  · exact ⟨_, _, _, carry_again hkind offered⟩

theorem sameIn_carry (q : Query α) (offered : Except StepFault (Payload α)) {g : StepGroup}
    (h : g ≠ .payload) : (q.carry offered).SameIn q g := by
  obtain ⟨payload, args, fault, hcarry⟩ := q.exists_carry offered
  rw [hcarry]
  cases g <;> first | rfl | exact absurd rfl h

/-- A step leaves the parts of other groups alone. -/
theorem sameIn_apply_of_ne (q : Query α) {s : Step α} {g : StepGroup} (h : g ≠ s.group) :
    (q.apply s).SameIn q g := by
  -- The steps with a payload differ only in what they offer.
  cases hs : s.offered? with
  | some offered =>
    rw [Step.group_of_offered? hs] at h
    rw [apply_of_offered hs]
    exact q.sameIn_carry offered h
  | none =>
    cases s with
    | filter p => exact q.sameIn_filter p h
    | filterText connective column operator a =>
      rw [apply, filterText_eq]
      cases Comparison.ofText? operator with
      | none => exact q.sameIn_refuse _ g
      | some op => exact q.sameIn_filter _ h
    | rows | assignments | upsert => cases hs
    | combine op members =>
      rw [apply, combine_eq]
      cases g <;> first | rfl | exact absurd rfl h
    | _ => cases g <;> first | rfl | exact absurd rfl h

theorem members_apply (q : Query α) (s : Step α) :
    (q.apply s).members = q.members ++ s.attached := by
  by_cases hs : s.group = .members
  · cases s with
    | combine op members => rw [apply, combine_eq]; rfl
    | _ => cases hs
  · rw [attached_of_group hs, List.append_nil]
    exact q.sameIn_apply_of_ne (Ne.symm hs)

theorem payload_carry_congr {q r : Query α} (h : q.payload = r.payload)
    (offered : Except StepFault (Payload α)) :
    (q.carry offered).payload = (r.carry offered).payload := by
  by_cases hkind : q.payload.kind = .empty
  · have hkind' : r.payload.kind = .empty := h ▸ hkind
    cases offered with
    | ok payload => rw [carry_ok hkind, carry_ok hkind']
    | error fault =>
      rw [carry_error hkind, carry_error hkind']
      exact h
  · have hkind' : r.payload.kind ≠ .empty := h ▸ hkind
    rw [carry_again hkind, carry_again hkind']
    exact h

/-- What a step leaves in the part of its group depends on this part only. -/
theorem SameIn.apply {q r : Query α} {s : Step α} (h : q.SameIn r s.group) :
    (q.apply s).SameIn (r.apply s) s.group := by
  cases hs : s.offered? with
  | some offered =>
    rw [Step.group_of_offered? hs] at h ⊢
    rw [apply_of_offered hs, apply_of_offered hs]
    exact payload_carry_congr h offered
  | none =>
    cases s with
    | rows | assignments | upsert => cases hs
    | filter p =>
      show (q.filter p).block.filters = (r.filter p).block.filters
      rw [filters_filter, filters_filter]
      exact congrArg (· ++ [p.recorded]) h
    | filterText connective column operator a =>
      rw [Query.apply, Query.apply, filterText_eq, filterText_eq]
      cases Comparison.ofText? operator with
      | none => exact h
      | some op =>
        show (q.filter _).block.filters = (r.filter _).block.filters
        rw [filters_filter, filters_filter]
        exact congrArg (· ++ [_]) h
    | combine op members =>
      rw [Query.apply, Query.apply, combine_eq, combine_eq]
      exact congrArg (· ++ _) h
    | orderBy key | outerOrderBy key | join j => exact congrArg (· ++ [_]) h
    | _ => rfl

theorem fault_carry (q : Query α) (offered : Except StepFault (Payload α)) :
    (q.carry offered).fault = q.fault.or (Payload.refusal? q.payload.kind offered) := by
  by_cases hkind : q.payload.kind = .empty
  · cases offered with
    | ok payload => simp [Payload.refusal?, hkind, carry_ok hkind]
    | error fault => simp [Payload.refusal?, hkind, carry_error hkind, refuse]
  · simp [Payload.refusal?, hkind, carry_again hkind, refuse]

/-- What a step is refused for on a query. -/
def stepRefusal? (q : Query α) (s : Step α) : Option StepFault :=
  ({ q with fault := none }.apply s).fault

/-- The refused steps among steps that are taken in order, each with its group. -/
def refusals (q : Query α) : List (Step α) → List (StepGroup × StepFault)
  | [] => []
  | s :: rest => ((q.stepRefusal? s).map (s.group, ·)).toList ++ (q.apply s).refusals rest

theorem stepRefusal?_of_offered {s : Step α} {offered : Except StepFault (Payload α)}
    (h : s.offered? = some offered) (q : Query α) :
    q.stepRefusal? s = Payload.refusal? q.payload.kind offered := by
  rw [stepRefusal?, apply_of_offered h, fault_carry, Option.none_or]

theorem stepRefusal?_filter (q : Query α) (p : Predicate α) :
    q.stepRefusal? (.filter p) = none := by
  obtain ⟨args, hfilter⟩ := exists_filter { q with fault := none } p
  rw [stepRefusal?, apply, hfilter]

theorem stepRefusal?_filterText (q : Query α) (connective : Connective) (column operator : String)
    (a : α) :
    q.stepRefusal? (.filterText connective column operator a) =
      if (Comparison.ofText? operator).isSome then none
      else some (.unsupportedOperator operator column) := by
  rw [stepRefusal?, apply, filterText_eq]
  cases hop : Comparison.ofText? operator with
  | none => rfl
  | some op => exact q.stepRefusal?_filter ⟨connective, .compare column op a⟩

theorem stepRefusal?_combine (q : Query α) (op : SetOp) (members : List (Query α)) :
    q.stepRefusal? (.combine op members) = none := by
  rw [stepRefusal?, apply, combine_eq]

/-- A step adds its refusal to a query, unless a step was refused before. -/
theorem fault_apply (q : Query α) (s : Step α) :
    (q.apply s).fault = q.fault.or (q.stepRefusal? s) := by
  cases hs : s.offered? with
  | some offered =>
    rw [stepRefusal?_of_offered hs, apply_of_offered hs, fault_carry]
  | none =>
    cases s with
    | rows | assignments | upsert => cases hs
    | filter p =>
      obtain ⟨args, hfilter⟩ := q.exists_filter p
      rw [stepRefusal?_filter, apply, hfilter, Option.or_none]
    | filterText connective column operator a =>
      rw [stepRefusal?_filterText, apply, filterText_eq]
      cases Comparison.ofText? operator with
      | none => rfl
      | some op =>
        obtain ⟨args, hfilter⟩ := q.exists_filter ⟨connective, .compare column op a⟩
        simp [hfilter]
    | combine op members => rw [stepRefusal?_combine, apply, combine_eq, Option.or_none]
    | _ => exact Option.or_none.symm

/-- The refusal of a step depends on the part of its group only. -/
theorem SameIn.stepRefusal? {q r : Query α} {s : Step α} (h : q.SameIn r s.group) :
    q.stepRefusal? s = r.stepRefusal? s := by
  cases hs : s.offered? with
  | some offered =>
    rw [Step.group_of_offered? hs] at h
    have hpayload : q.payload = r.payload := h
    rw [stepRefusal?_of_offered hs, stepRefusal?_of_offered hs, hpayload]
  | none =>
    cases s with
    | rows | assignments | upsert => cases hs
    | filter p => rw [stepRefusal?_filter, stepRefusal?_filter]
    | filterText => rw [stepRefusal?_filterText, stepRefusal?_filterText]
    | combine => rw [stepRefusal?_combine, stepRefusal?_combine]
    | _ => rfl

/-- Only predicates and payloads are refused. -/
theorem group_of_refusal? {q : Query α} {s : Step α} {fault : StepFault}
    (h : q.stepRefusal? s = some fault) : s.group = .predicates ∨ s.group = .payload := by
  cases hs : s.offered? with
  | some offered => exact .inr (Step.group_of_offered? hs)
  | none =>
    cases s with
    | rows | assignments | upsert => cases hs
    | filter | filterText => exact .inl rfl
    | combine op members =>
      rw [stepRefusal?_combine] at h
      cases h
    | _ => cases h

theorem build_cons (q : Query α) (s : Step α) (steps : List (Step α)) :
    q.build (s :: steps) = (q.apply s).build steps := rfl

/-- The fault of a query is the first refused step. -/
theorem fault_build (q : Query α) (steps : List (Step α)) :
    (q.build steps).fault = q.fault.or ((q.refusals steps).head?.map Prod.snd) := by
  induction steps generalizing q with
  | nil => exact Option.or_none.symm
  | cons s steps ih =>
    rw [build_cons, ih, fault_apply, refusals, Option.or_assoc]
    cases q.stepRefusal? s <;> rfl

theorem group_of_mem_refusals {q : Query α} {steps : List (Step α)} {g : StepGroup}
    {fault : StepFault} (h : (g, fault) ∈ q.refusals steps) : g = .predicates ∨ g = .payload := by
  induction steps generalizing q with
  | nil => cases h
  | cons s steps ih =>
    rcases List.mem_append.mp h with hs | hrest
    · simp only [Option.mem_toList, Option.map_eq_some_iff] at hs
      obtain ⟨_, hs, heq⟩ := hs
      cases heq
      exact group_of_refusal? hs
    · exact ih hrest

/-! ### The steps of one group -/

/-- What steps leave in the part of a group is what the steps of this group leave there. -/
theorem sameIn_build {q r : Query α} {g : StepGroup} (h : q.SameIn r g) (steps : List (Step α)) :
    (q.build steps).SameIn (r.build (g.among steps)) g := by
  -- The right side takes the steps of `g` only, so `q` and `r` agree in `g` and nowhere else.
  induction steps generalizing q r with
  | nil => exact h
  | cons s steps ih =>
    by_cases hs : s.group = g
    · subst hs
      rw [StepGroup.among_cons_of_eq rfl]
      exact ih h.apply
    · rw [StepGroup.among_cons_of_ne hs]
      exact ih ((q.sameIn_apply_of_ne (Ne.symm hs)).trans h)

/-- The refusals in a group are those of the steps of this group alone. -/
theorem filter_refusals {q r : Query α} {g : StepGroup} (h : q.SameIn r g)
    (steps : List (Step α)) :
    (q.refusals steps).filter (fun refused => refused.1 = g) =
      r.refusals (g.among steps) := by
  induction steps generalizing q r with
  | nil => rfl
  | cons s steps ih =>
    rw [refusals, List.filter_append]
    by_cases hs : s.group = g
    · subst hs
      rw [StepGroup.among_cons_of_eq rfl, refusals, ← h.stepRefusal?, ih h.apply]
      cases q.stepRefusal? s <;> simp
    · rw [StepGroup.among_cons_of_ne hs, ih ((q.sameIn_apply_of_ne (Ne.symm hs)).trans h)]
      cases q.stepRefusal? s <;> simp [hs]

end Step

theorem ext_sameIn {q r : Query α} (h : ∀ g, q.SameIn r g) (hargs : q.args = r.args)
    (hmemberArgs : q.memberArgs = r.memberArgs) : { q with fault := r.fault } = r := by
  obtain ⟨⟨_, _, _, _, _, _⟩, ⟨_, _, _⟩, _, ⟨_, _, _⟩, _, _, _, _, _, _, _⟩ := q
  obtain ⟨⟨_, _, _, _, _, _⟩, ⟨_, _, _⟩, _, ⟨_, _, _⟩, _, _, _, _, _, _, _⟩ := r
  have htables := h .tables
  have hselect := h .select
  have hdistinct := h .distinct
  have hgroups := h .groupBy
  have horder := h .order
  have hlimit := h .limit
  have hoffset := h .offset
  have houterOrder := h .outerOrder
  have houterLimit := h .outerLimit
  have houterOffset := h .outerOffset
  have htarget := h .onConflict
  have hreturning := h .returning
  have hstyle := h .placeholder
  have hjoins := h .joins
  have hmembers := h .members
  have hpredicates := h .predicates
  have hpayload := h .payload
  simp only [SameIn] at *
  subst_vars
  rfl

end Query

/-! ### Sequences with the same steps in every group -/

/-- Two sequences take the steps of each group in the same order. -/
def Interleaved (xs ys : List (Step α)) : Prop :=
  ∀ g : StepGroup, g.among xs = g.among ys

theorem Predicate.ofSteps_filter (steps : List (Step α)) :
    ofSteps (StepGroup.predicates.among steps) = ofSteps steps := by
  induction steps with
  | nil => rfl
  | cons s steps ih =>
    by_cases hs : s.group = .predicates
    · rw [StepGroup.among_cons_of_eq hs]
      exact congrArg (s.predicates ++ ·) ih
    · have hnone : s.predicates = [] := by cases s <;> first | rfl | exact absurd rfl hs
      rw [StepGroup.among_cons_of_ne hs, ih, ofSteps, ofSteps, List.flatMap_cons, hnone,
        List.nil_append]

namespace Interleaved

variable [HasNull α] {xs ys : List (Step α)} (h : Interleaved xs ys)

include h

theorem sameIn (q : Query α) (g : StepGroup) : (q.build xs).SameIn (q.build ys) g := by
  have hx := Query.sameIn_build (Query.SameIn.refl q g) xs
  have hy := Query.sameIn_build (Query.SameIn.refl q g) ys
  rw [h g] at hx
  exact hx.trans hy.symm

theorem filter_refusals (q : Query α) (g : StepGroup) :
    (q.refusals xs).filter (fun refused => refused.1 = g) =
      (q.refusals ys).filter (fun refused => refused.1 = g) := by
  rw [Query.filter_refusals (Query.SameIn.refl q g), Query.filter_refusals (Query.SameIn.refl q g),
    h g]

theorem args (table : Option String) :
    ((Query.start table).build xs).args = ((Query.start table).build ys).args := by
  have hx := Recorded.build table xs
  have hy := Recorded.build table ys
  have hpayload : _ = _ := h.sameIn (Query.start table) .payload
  have hmembers : _ = _ := h.sameIn (Query.start table) .members
  have hpredicates : Predicate.ofSteps xs = Predicate.ofSteps ys := by
    rw [← Predicate.ofSteps_filter xs, h .predicates, Predicate.ofSteps_filter]
  rw [hx.args, hy.args, hpayload, hpredicates, Query.attachedArgs, Query.attachedArgs, hmembers]

theorem memberArgs (table : Option String) :
    ((Query.start table).build xs).memberArgs = ((Query.start table).build ys).memberArgs := by
  have hx := Recorded.build table xs
  have hy := Recorded.build table ys
  have hmembers : _ = _ := h.sameIn (Query.start table) .members
  rw [hx.memberArgs, hy.memberArgs, Query.attachedArgs, Query.attachedArgs, hmembers]

theorem mem_refusals {q : Query α} {g : StepGroup} {fault : StepFault} :
    (g, fault) ∈ q.refusals xs ↔ (g, fault) ∈ q.refusals ys := by
  have hmem : ∀ steps : List (Step α), (g, fault) ∈ q.refusals steps ↔
      (g, fault) ∈ (q.refusals steps).filter fun refused => refused.1 = g := fun steps => by simp
  rw [hmem xs, h.filter_refusals q g, ← hmem ys]

/-- When the refused steps are all of one group, both sequences are refused for the same. -/
theorem refusals_eq {q : Query α} {g : StepGroup} (hg : ∀ refused ∈ q.refusals xs, refused.1 = g) :
    q.refusals xs = q.refusals ys := by
  have hx : (q.refusals xs).filter (fun refused => refused.1 = g) = q.refusals xs :=
    List.filter_eq_self.mpr fun refused hr => by simpa using hg refused hr
  have hy : (q.refusals ys).filter (fun refused => refused.1 = g) = q.refusals ys :=
    List.filter_eq_self.mpr fun refused hr => by simpa using hg refused (h.mem_refusals.mpr hr)
  rw [← hx, ← hy, h.filter_refusals q g]

theorem fault_eq_none_iff (q : Query α) :
    (q.build xs).fault = none ↔ (q.build ys).fault = none := by
  have hnil : q.refusals xs = [] ↔ q.refusals ys = [] := by
    simp only [List.eq_nil_iff_forall_not_mem, Prod.forall, h.mem_refusals]
  simp only [Query.fault_build, Option.or_eq_none_iff, Option.map_eq_none_iff,
    List.head?_eq_none_iff, hnil]

/-- The first refused steps differ only if predicates and payloads were both refused. -/
theorem exists_refusal {q : Query α} (hne : (q.build xs).fault ≠ (q.build ys).fault) {g : StepGroup}
    (hg : g = .predicates ∨ g = .payload) : ∃ fault, (g, fault) ∈ q.refusals xs := by
  by_contra hnone
  -- Without a refusal in `g` all refusals are in the other group, whose order both keep.
  have hother : ∃ other, ∀ refused ∈ q.refusals xs, refused.1 = other := by
    refine ⟨if g = .predicates then .payload else .predicates, fun (g', fault) hr => ?_⟩
    have hne' : g' ≠ g := fun heq => hnone ⟨fault, heq ▸ hr⟩
    rcases hg with rfl | rfl <;> rcases Query.group_of_mem_refusals hr with rfl | rfl <;>
      simp_all
  obtain ⟨other, hall⟩ := hother
  rw [Query.fault_build, Query.fault_build, h.refusals_eq hall] at hne
  exact hne rfl

end Interleaved

theorem Query.exists_compileAt_error {q : Query α} (h : q.fault ≠ none) (entry : EntryPoint) :
    ∃ e, q.compileAt entry = .error e := by
  obtain ⟨fault, hfault⟩ := Option.ne_none_iff_exists'.mp h
  refine ⟨.step fault, ?_⟩
  rw [compileAt_eq, compileWith, firstFault?_eq, hfault]
  rfl

namespace Query

theorem eq_of_fault_eq {q r : Query α} (h : { q with fault := r.fault } = r)
    (hfault : q.fault = r.fault) : q = r := by
  rw [← hfault] at h
  cases q
  exact h

/-- Members attached at once or one part after the other. -/
theorem combine_append (q : Query α) (op : SetOp) (ms ns : List (Query α)) :
    q.combine op (ms ++ ns) = (q.combine op ms).combine op ns := by
  simp only [combine, List.foldl_append]

variable [HasNull α]

/-- Steps of different groups can be taken in any order.  The queries are the same but for the
first refused step, which can be another one when predicates and payloads were both refused, and
every statement comes out the same or fails for both.  Members can be attached one part after the
other. -/
theorem build_interleaved (table : Option String) {xs ys : List (Step α)} (h : Interleaved xs ys) :
    let q : Query α := (start table).build xs
    let r : Query α := (start table).build ys
    { q with fault := r.fault } = r ∧
      (q.fault = none ↔ r.fault = none) ∧
      (q.fault ≠ r.fault → ∀ g ∈ [StepGroup.predicates, .payload],
        ∃ fault, (g, fault) ∈ (start table).refusals xs) ∧
      (∀ entry, (∃ s, q.compileAt entry = .ok s ∧ r.compileAt entry = .ok s) ∨
        ∃ e e', q.compileAt entry = .error e ∧ r.compileAt entry = .error e') ∧
      ∀ (p : Query α) (op : SetOp) (ms ns : List (Query α)),
        p.build [.combine op (ms ++ ns)] = p.build [.combine op ms, .combine op ns] := by
  intro q r
  have hsame : { q with fault := r.fault } = r :=
    ext_sameIn (h.sameIn _) (h.args table) (h.memberArgs table)
  have hnone : q.fault = none ↔ r.fault = none := h.fault_eq_none_iff _
  refine ⟨hsame, hnone, fun hne g hg => h.exists_refusal hne (by simpa using hg), ?_,
    fun p op ms ns => p.combine_append op ms ns⟩
  intro entry
  -- A refused step makes every statement fail; without one nothing tells the queries apart.
  by_cases hq : q.fault = none
  · rw [eq_of_fault_eq hsame (hq.trans (hnone.mp hq).symm)]
    cases hr : r.compileAt entry with
    | ok s => exact .inl ⟨s, rfl, rfl⟩
    | error e => exact .inr ⟨e, e, rfl, rfl⟩
  · obtain ⟨e, he⟩ := exists_compileAt_error hq entry
    obtain ⟨e', he'⟩ := exists_compileAt_error (fun hr => hq (hnone.mpr hr)) entry
    exact .inr ⟨e, e', he, he'⟩

def predicatesFirst : List (Step Value) :=
  [.filter ⟨.and, .compare "x" .eq (.int8 1)⟩, .filterText .or "y" "~" (.int8 9),
    .combine .union [(ofTable "b").build [.filter ⟨.and, .compare "z" .lt (.int8 3)⟩]],
    .filter ⟨.or, .compare "x" .gt (.int8 2)⟩, .rows [], .limit 2]

/-- The same steps, the member in front of the predicates and the payload in front of all. -/
def payloadFirst : List (Step Value) :=
  [.rows [], .limit 2,
    .combine .union [(ofTable "b").build [.filter ⟨.and, .compare "z" .lt (.int8 3)⟩]],
    .filter ⟨.and, .compare "x" .eq (.int8 1)⟩, .filterText .or "y" "~" (.int8 9),
    .filter ⟨.or, .compare "x" .gt (.int8 2)⟩]

theorem build_interleaved_payloadFirst :
    Interleaved predicatesFirst payloadFirst ∧
      let q := (start (some "a")).build predicatesFirst
      let r := (start (some "a")).build payloadFirst
      q.args = [.int8 1, .int8 2, .int8 3] ∧ { q with fault := r.fault } = r ∧
        q.fault = some (.unsupportedOperator "~" "y") ∧ r.fault = some .noRecord ∧
        ∀ g ∈ [StepGroup.predicates, .payload],
          ∃ fault, (g, fault) ∈ (start (some "a")).refusals predicatesFirst := by
  have h : Interleaved predicatesFirst payloadFirst := by
    intro g
    cases g <;> rfl
  have hall := build_interleaved (some "a") h
  exact ⟨h, rfl, hall.1, by decide, rfl, hall.2.2.1 (by decide)⟩

end Query

end BoundSql
