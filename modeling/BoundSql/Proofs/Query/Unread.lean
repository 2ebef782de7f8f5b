import BoundSql.Proofs.Query.Parts

/-! Steps that leave no trace.  Steps of the groups that a statement does not read may be inserted
anywhere into the steps that build a query (`Query.build_inserted`).  The clauses that trail
combined rows are read nowhere as long as there are no members, not even if the query becomes a
member of another one, which again becomes a member. -/

namespace BoundSql

variable {α : Type}

/-- The second list of steps is the first one with steps of some groups inserted. -/
inductive Inserted (groups : List StepGroup) : List (Step α) → List (Step α) → Prop
  | nil : Inserted groups [] []
  | keep (s : Step α) {steps more : List (Step α)} :
      Inserted groups steps more → Inserted groups (s :: steps) (s :: more)
  | insert {s : Step α} (hs : s.group ∈ groups) {steps more : List (Step α)} :
      Inserted groups steps more → Inserted groups steps (s :: more)

/-- A query built around one more member, whichever that is. -/
structure Host (α : Type) where
  first : Query α
  before : List (Step α)
  op : SetOp
  left : List (Query α)
  right : List (Query α)
  after : List (Step α)

def Host.around [HasNull α] (host : Host α) (member : Query α) : Query α :=
  host.first.build
    (host.before ++ .combine host.op (host.left ++ member :: host.right) :: host.after)

namespace Query

variable {groups : List StepGroup} {q r : Query α}

/-- Members are attached by what they count for. -/
theorem combine_sameBut (q : Query α) (op : SetOp) {members others : List (Query α)}
    (h : members.map operand = others.map operand) :
    (q.combine op members).SameBut [] (q.combine op others) := by
  have hargs : members.flatMap Query.args = others.flatMap Query.args := by
    have hflat := congrArg (List.flatMap Operand.args) h
    rwa [List.flatMap_map, List.flatMap_map] at hflat
  have hoperands :
      members.map (fun m => (op, m.operand)) = others.map fun m => (op, m.operand) := by
    have hmap := congrArg (List.map (Prod.mk op)) h
    rwa [List.map_map, List.map_map] at hmap
  rw [combine_eq, combine_eq, hargs]
  refine ⟨fun g hne _ => ?_, ?_, rfl, rfl, rfl⟩
  · cases g <;> first | rfl | exact absurd rfl hne
  · simp only [operands, List.map_append, List.map_map]
    exact congrArg _ hoperands

/-- The clauses that trail combined rows are not read without members. -/
theorem SameBut.compileAt_eq_of_outer (h : q.SameBut StepGroup.outer r) (hmembers : q.members = [])
    (entry : EntryPoint) : q.compileAt entry = r.compileAt entry := by
  refine h.compileAt_eq_of_commandAt (by decide) ?_
  obtain ⟨hselect, hcount, hexists⟩ := h.reads_eq (by decide) (.inl hmembers)
  rcases entry with kind | _ | _
  · by_cases hkind : kind = .select
    · subst hkind
      exact hselect
    · refine h.command_eq hkind ?_
      revert hkind
      cases kind <;> decide
  · exact hcount
  · exact hexists

variable [HasNull α]

theorem SameBut.of_inserted {steps more : List (Step α)} (h : Inserted groups steps more)
    (hgroups : ∀ g ∈ groups, g.binds = false) (hsame : q.SameBut groups r) :
    (q.build more).SameBut groups (r.build steps) := by
  induction h generalizing q r with
  | nil => exact hsame
  | keep s _ ih => exact ih (hsame.apply hgroups s)
  | insert hs _ ih => exact ih ((SameBut.of_apply hs (hgroups _ hs) q).trans hsame)

/-- The query as a member of the first host, the result as a member of the second one, and so on. -/
def within (q : Query α) (hosts : List (Host α)) : Query α :=
  hosts.foldl (fun member host => host.around member) q

/-- A member is read only for what it counts for. -/
theorem around_sameBut (host : Host α) (h : q.operand = r.operand) :
    (host.around q).SameBut [] (host.around r) := by
  have hmembers : (host.left ++ q :: host.right).map operand =
      (host.left ++ r :: host.right).map operand := by
    rw [List.map_append, List.map_append, List.map_cons, List.map_cons, h]
  rw [Host.around, Host.around, build, build, List.foldl_append, List.foldl_append]
  refine SameBut.build (fun _ hg => ?_) (combine_sameBut _ host.op hmembers) host.after
  cases hg

/-- Two queries that count for the same and have the same statements are as good as each other at
any depth. -/
theorem compileAt_within (hoperand : q.operand = r.operand)
    (hcompile : ∀ entry, q.compileAt entry = r.compileAt entry) (hosts : List (Host α))
    (entry : EntryPoint) :
    (q.within hosts).compileAt entry = (r.within hosts).compileAt entry := by
  induction hosts generalizing q r with
  | nil => exact hcompile entry
  | cons host hosts ih =>
    -- From the first host on the queries agree in all parts, whatever they differed in before.
    have hhosted := around_sameBut host hoperand
    refine ih (hhosted.operand_eq ?_ (.inr ?_)) fun e => ?_
    · exact fun _ _ => List.not_mem_nil
    · exact fun _ _ => List.not_mem_nil
    · exact (hhosted.mono (List.nil_subset _)).compileAt_eq

/-- Steps that a statement does not read may be taken or left, anywhere; steps for the combined rows
of a query without members may be taken or left also if it becomes a member, at any depth. -/
theorem build_inserted (q : Query α) {steps more : List (Step α)} :
    (∀ entry : EntryPoint, Inserted entry.unread steps more →
      (q.build more).compileAt entry = (q.build steps).compileAt entry) ∧
    (Inserted StepGroup.outer steps more → (q.build steps).members = [] →
      ∀ (hosts : List (Host α)) (entry : EntryPoint),
        ((q.build more).within hosts).compileAt entry =
          ((q.build steps).within hosts).compileAt entry) := by
  constructor
  · intro entry h
    have hgroups : ∀ g ∈ entry.unread, g.binds = false := by
      rcases entry with kind | _ | _
      · cases kind <;> decide
      · decide
      · decide
    exact (SameBut.of_inserted h hgroups (.refl _ q)).compileAt_eq
  · intro h hmembers
    have hsame := SameBut.of_inserted h (by decide) (.refl _ q)
    have hmembers' : (q.build more).members = [] := hsame.members_eq_nil_iff.mpr hmembers
    exact compileAt_within (hsame.operand_eq (by decide) (.inl hmembers'))
      (hsame.compileAt_eq_of_outer hmembers')

def oneRow : List (Step Value) := [.rows [.ofList [("x", .int8 1)]], .returning ["id"]]

/-- The same steps among steps that an INSERT does not read. -/
def oneRowShaped : List (Step Value) :=
  [.distinct, .limit 3, .rows [.ofList [("x", .int8 1)]], .join ⟨.left, "b", "b.id = a.id"⟩,
    .onConflict ["x"], .returning ["id"], .outerLimit 2]

def positive : List (Step Value) := [.filter ⟨.and, .compare "x" .gt (.int8 0)⟩, .limit 5]

/-- The same steps among steps for the combined rows. -/
def positiveOuter : List (Step Value) :=
  [.outerOffset 4, .filter ⟨.and, .compare "x" .gt (.int8 0)⟩, .outerOrderBy ⟨"x", .desc⟩, .limit 5]

/-- A member of a UNION which is a member of a UNION ALL. -/
def twoDeep : List (Host Value) :=
  [⟨ofTable "b", [.filter ⟨.and, .compare "y" .lt (.int8 7)⟩], .union, [ofTable "c"], [], []⟩,
    ⟨ofTable "d", [], .unionAll, [], [ofTable "e"], [.outerLimit 6]⟩]

theorem build_inserted_twoDeep :
    Inserted (EntryPoint.statement .insert).unread oneRow oneRowShaped ∧
      ((ofTable "a").build oneRowShaped).compile .insert =
        .ok ⟨"INSERT INTO a (x) VALUES ($1) RETURNING id", [.int8 1]⟩ ∧
      Inserted StepGroup.outer positive positiveOuter ∧
      (((ofTable "a").build positiveOuter).within twoDeep).compile .select =
        .ok ⟨"SELECT * FROM d UNION ALL (SELECT * FROM b WHERE y < $1 UNION SELECT * FROM c UNION "
            ++ "(SELECT * FROM a WHERE x > $2 LIMIT 5)) UNION ALL SELECT * FROM e LIMIT 6",
          [.int8 7, .int8 0]⟩ := by
  have hrow : Inserted (EntryPoint.statement .insert).unread oneRow oneRowShaped :=
    .insert (by decide) <| .insert (by decide) <| .keep _ <| .insert (by decide) <|
      .insert (by decide) <| .keep _ <| .insert (by decide) .nil
  have houter : Inserted StepGroup.outer positive positiveOuter :=
    .insert (by decide) <| .keep _ <| .insert (by decide) <| .keep _ .nil
  refine ⟨hrow, ?_, houter, ?_⟩
  · refine ((build_inserted (ofTable "a")).1 _ hrow).trans ?_
    decide +kernel
  · refine ((build_inserted (ofTable "a")).2 houter rfl twoDeep (.statement .select)).trans ?_
    decide +kernel

end Query

end BoundSql
