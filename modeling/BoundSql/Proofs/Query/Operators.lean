import BoundSql.Proofs.Session.Refusals
import BoundSql.Proofs.Text.Runs

/-! Operators given as text.  `Comparison.Spelled` says which texts spell a comparison: their words,
compared one by one or joined by single spaces, are one of its spellings.  A comparison whose operator
is a text is the comparison that the text spells, and a text that spells none spoils the query
(`Query.operatorText_exact`). -/

namespace BoundSql

variable {α : Type}

namespace Comparison

/-- The words that spell a comparison. -/
inductive Spelling : List String → Comparison → Prop
  | eq : Spelling ["="] .eq
  | eqTwice : Spelling ["=="] .eq
  | ne : Spelling ["!="] .ne
  | neAngles : Spelling ["<>"] .ne
  | gt : Spelling [">"] .gt
  | ge : Spelling [">="] .ge
  | lt : Spelling ["<"] .lt
  | le : Spelling ["<="] .le
  | like : Spelling ["LIKE"] .like
  | ilike : Spelling ["ILIKE"] .ilike
  | notLike : Spelling ["NOT", "LIKE"] .notLike
  | notIlike : Spelling ["NOT", "ILIKE"] .notIlike

/-- The runs of a text between its blanks, with ASCII letters in upper case, spell a comparison. -/
def Spelled (text : String) (op : Comparison) : Prop :=
  ∃ runs, Text.Runs text.toList runs ∧
    Spelling (runs.map fun run => String.ofList (run.map Char.toUpper)) op

/-- Words with a single space between them. -/
def joined (words : List String) : String := String.intercalate " " words

theorem spelling_iff {words : List String} {op : Comparison} :
    Spelling words op ↔ words ∈ op.spellings := by
  constructor
  · intro h
    cases h <;> decide
  · intro h
    cases op <;> simp only [spellings, List.mem_cons, List.not_mem_nil, or_false] at h
    case eq | ne => rcases h with rfl | rfl <;> constructor
    all_goals
      subst h
      constructor

theorem ofText?_iff_spelled {text : String} {op : Comparison} :
    ofText? text = some op ↔ Spelled text op := by
  rw [ofText?_eq_some_iff, ← spelling_iff, tokens]
  constructor
  · intro h
    exact ⟨Text.words text.toList, Text.words_eq_iff.mp rfl, h⟩
  · rintro ⟨runs, hruns, h⟩
    rwa [hruns.words_eq]

/-! ### Joined words -/

theorem eq_space_of_toUpper {c : Char} (h : c.toUpper = ' ') : c = ' ' := by
  unfold Char.toUpper at h
  split at h
  · rename_i hlower
    have hval := congrArg Char.val h
    simp only [UInt32.le_iff_toNat_le, ← UInt32.toNat_inj] at hval hlower
    simp at hval hlower
    omega
  · exact h

/-- Words can be told apart again after they were joined. -/
theorem joined_inj {words words' : List String}
    (h : ∀ w ∈ words, w ≠ "" ∧ ' ' ∉ w.toList) (h' : ∀ w ∈ words', w ≠ "" ∧ ' ' ∉ w.toList)
    (heq : joined words = joined words') : words = words' := by
  have hsplit := String.toList_split_intercalate fun w hw => (h w hw).2
  have hsplit' := String.toList_split_intercalate fun w hw => (h' w hw).2
  have hempty : ∀ ws : List String, (∀ w ∈ ws, w ≠ "" ∧ ' ' ∉ w.toList) → ws ≠ [""] := by
    rintro ws hws rfl
    exact (hws "" (by simp)).1 rfl
  -- A split gives back every list of words but the empty one, which comes back as one empty word.
  have hsame : (if words = [] then [""] else words) = if words' = [] then [""] else words' := by
    rw [← hsplit, ← hsplit']
    exact congrArg (fun s : String => (s.split ' ').toList.map (·.copy)) heq
  split at hsame <;> split at hsame
  · rename_i hnil hnil'
    rw [hnil, hnil']
  · exact absurd hsame.symm (hempty words' h')
  · exact absurd hsame (hempty words h)
  · exact hsame

theorem spaceless_tokens (text : String) : ∀ w ∈ tokens text, w ≠ "" ∧ ' ' ∉ w.toList := by
  intro w hw
  obtain ⟨run, hrun, rfl⟩ := List.mem_map.mp hw
  obtain ⟨hne, hblank⟩ := Text.word_of_mem_words hrun
  constructor
  · intro hempty
    have hnil := congrArg String.toList hempty
    simp [hne] at hnil
  · intro hspace
    rw [String.toList_ofList] at hspace
    obtain ⟨c, hc, hupper⟩ := List.mem_map.mp hspace
    have hc' := hblank c hc
    rw [eq_space_of_toUpper hupper] at hc'
    exact absurd hc' (by decide)

theorem ofText?_iff_joined {text : String} {op : Comparison} :
    ofText? text = some op ↔ joined (tokens text) ∈ op.spellings.map joined := by
  rw [ofText?_eq_some_iff, List.mem_map]
  constructor
  · intro h
    exact ⟨_, h, rfl⟩
  · rintro ⟨words, hwords, heq⟩
    have hspelling : ∀ w ∈ words, w ≠ "" ∧ ' ' ∉ w.toList := by
      have hall : ∀ ws ∈ op.spellings, ∀ w ∈ ws, w ≠ "" ∧ ' ' ∉ w.toList := by
        cases op <;> decide
      exact hall words hwords
    rwa [← joined_inj hspelling (spaceless_tokens text) heq]

theorem ofText_ok_iff {text : String} {op : Comparison} :
    ofText text = .ok op ↔ ofText? text = some op := by
  unfold ofText
  cases ofText? text <;> simp

theorem ofText_error_iff {text : String} {e : Error} :
    ofText text = .error e ↔ ofText? text = none ∧
      e = .validation ("unsupported comparison operator '" ++ text ++ "'") := by
  unfold ofText
  cases ofText? text <;> simp [eq_comm]

end Comparison

namespace Query

variable [HasNull α]

theorem filterText_of_ok {text : String} {op : Comparison} (h : Comparison.ofText text = .ok op)
    (q : Query α) (connective : Connective) (column : String) (a : α) :
    q.apply (.filterText connective column text a) =
      q.apply (.filter ⟨connective, .compare column op a⟩) := by
  show q.filterText connective column text a = q.filter ⟨connective, .compare column op a⟩
  rw [filterText_eq, Comparison.ofText_ok_iff.mp h]

theorem filterText_of_error {text : String} {e : Error} (h : Comparison.ofText text = .error e)
    (q : Query α) (connective : Connective) (column : String) (a : α) :
    q.apply (.filterText connective column text a) =
      q.refuse (.unsupportedOperator text column) := by
  rw [apply, filterText_eq, (Comparison.ofText_error_iff.mp h).1]

/-- A query that was refused a step spoils every query that has it inside, whatever is done with
either afterwards. -/
theorem Spoiled.of_mem_nodes {n q : Query α} (hn : n.fault ≠ none) (steps : List (Step α))
    (h : n.build steps ∈ q.nodes) : q.Spoiled := by
  obtain ⟨fault, hfault⟩ := Option.ne_none_iff_exists'.mp hn
  refine ⟨n.build steps, h, ?_⟩
  rw [fault_build_of_some hfault]
  exact Option.some_ne_none fault

/-- A text is an operator exactly when it spells a comparison, be its words compared one by one or
joined, and then the step that takes it is the step that takes the comparison.  For any other text
nothing is recorded or bound, and neither the query nor any that has it inside is ever compiled. -/
theorem operatorText_exact (text : String) :
    (∀ op, Comparison.ofText text = .ok op ↔ Comparison.Spelled text op) ∧
    (∀ op, Comparison.ofText text = .ok op ↔
      Comparison.joined (Comparison.tokens text) ∈ op.spellings.map Comparison.joined) ∧
    ((∀ op, ¬ Comparison.Spelled text op) → Comparison.ofText text =
      .error (.validation ("unsupported comparison operator '" ++ text ++ "'"))) ∧
    ∀ (q : Query α) (connective : Connective) (column : String) (a : α),
      let p := q.apply (.filterText connective column text a)
      (∀ op, Comparison.ofText text = .ok op →
        p = q.apply (.filter ⟨connective, .compare column op a⟩)) ∧
      ∀ e, Comparison.ofText text = .error e →
        p.body.predicates = q.body.predicates ∧ p.args = q.args ∧
        ∀ (steps : List (Step α)) (r : Query α), p.build steps ∈ r.nodes →
          ∀ (later : List (Step α)) (entry : EntryPoint), ∃ fault,
            (r.build later).compileAt entry = .error (.step fault) ∧
              (CompileError.step fault).toError = .validation fault.message := by
  refine ⟨fun op => ?_, fun op => ?_, fun h => ?_, fun q connective column a => ⟨?_, ?_⟩⟩
  · rw [Comparison.ofText_ok_iff, Comparison.ofText?_iff_spelled]
  · rw [Comparison.ofText_ok_iff, Comparison.ofText?_iff_joined]
  · have hnone : Comparison.ofText? text = none :=
      Option.eq_none_iff_forall_ne_some.mpr fun op hop =>
        h op (Comparison.ofText?_iff_spelled.mp hop)
    exact Comparison.ofText_error_iff.mpr ⟨hnone, rfl⟩
  · intro op hop
    exact filterText_of_ok hop q connective column a
  · intro e he
    rw [filterText_of_error he]
    refine ⟨rfl, rfl, fun steps r hr later entry => ?_⟩
    have hrefused : (q.refuse (.unsupportedOperator text column)).fault ≠ none := by
      simp [refuse]
    have hspoiled := (Spoiled.of_mem_nodes hrefused steps hr).build later
    obtain ⟨fault, hfault⟩ := hspoiled.exists_findSome?
    exact ⟨fault, compileAt_of_findSome? hfault entry, rfl⟩

def users : Query Value := ofTable "users"

/-- A comparison whose operator has a space inside. -/
def torn : Query Value := users.apply (.filterText .and "age" "> =" (.int8 1))

theorem operatorText_exact_torn :
    Comparison.Spelled "\tnot\u2003LiKe" .notLike ∧
      users.apply (.filterText .or "name" "\tnot\u2003LiKe" (.text "a%")) =
        users.apply (.filter ⟨.or, .compare "name" .notLike (.text "a%")⟩) ∧
      (∀ op, ¬ Comparison.Spelled "> =" op) ∧
      Comparison.ofText "> =" =
        .error (.validation "unsupported comparison operator '> ='") ∧
      torn.body.predicates = [] ∧ torn.args = [] ∧
      ∃ fault, (users.apply (.combine .union [torn])).compileAt .count = .error (.step fault) := by
  have hlike : Comparison.ofText "\tnot\u2003LiKe" = .ok .notLike := by decide +kernel
  have htorn : ∀ op, ¬ Comparison.Spelled "> =" op := by
    intro op hop
    have hsome := Comparison.ofText?_iff_spelled.mpr hop
    have hnone : Comparison.ofText? "> =" = none := by decide +kernel
    rw [hnone] at hsome
    cases hsome
  obtain ⟨hspelled, _, _, happly⟩ := operatorText_exact (α := Value) "\tnot\u2003LiKe"
  obtain ⟨_, _, herror, hrefused⟩ := operatorText_exact (α := Value) "> ="
  obtain ⟨hpredicates, hargs, hcompile⟩ := (hrefused users .and "age" (.int8 1)).2 _ (herror htorn)
  have hinside : torn ∈ (users.apply (.combine .union [torn])).nodes := by
    rw [nodes_eq]
    exact .tail _ (.head _)
  obtain ⟨fault, hfault, _⟩ := hcompile [] (users.apply (.combine .union [torn])) hinside [] .count
  exact ⟨(hspelled .notLike).mp hlike, (happly users .or "name" (.text "a%")).1 _ hlike, htorn,
    herror htorn, hpredicates, hargs, fault, hfault⟩

end Query

end BoundSql
