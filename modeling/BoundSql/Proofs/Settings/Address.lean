import BoundSql.Proofs.Text.Numerals
import BoundSql.Settings.Address

/-! Which texts are internet addresses.  An address of version 4 is four numbers up to 255 with
points between them (`isVersion4_iff`).  One of version 6 is eight groups with colons between them,
or less than eight with two colons where groups are left out (`isVersion6_iff`). -/

namespace BoundSql.Address

theorem splitAt_eq_splitOn (separator : Char) (cs : List Char) :
    splitAt separator cs = cs.splitOn separator := by
  induction cs with
  | nil => rfl
  | cons c cs ih =>
    rw [splitAt, List.splitOn_cons_eq_if_modifyHead, ih]
    by_cases hc : c = separator
    · simp [hc]
    · obtain ⟨first, rest, hparts⟩ :=
        List.exists_cons_of_ne_nil (List.splitOn_ne_nil separator cs)
      simp [hc, hparts]

/-! ### Version 4 -/

/-- A byte is written in decimal digits without leading zeros. -/
theorem isByte_iff {cs : List Char} : isByte cs ↔ ∃ n ≤ 255, cs = (toString n).toList := by
  rw [isByte, Bool.and_eq_true, Bool.and_eq_true, Option.isSome_iff_exists]
  constructor
  · rintro ⟨⟨_, hzero⟩, n, hn⟩
    obtain ⟨⟨hne, hdigits, _⟩, hle⟩ := Text.bind_upTo_iff.mp hn
    have hvalue : Text.ofDigits 10 cs = n := by
      obtain ⟨m, hm, hmn⟩ := Option.bind_eq_some_iff.mp hn
      obtain ⟨rfl, _⟩ := Text.upTo_eq_some_iff.mp hmn
      rw [Text.digitsOnly?] at hm
      split at hm
      · cases hm
      · exact Option.some.inj hm
    have hlength : cs.head? = some '0' → cs.length = 1 := by
      intro hhead
      have hlen : 0 < cs.length := List.length_pos_of_ne_nil hne
      simp [hhead] at hzero
      omega
    refine ⟨n, hle, ?_⟩
    rw [Nat.toString_eq_repr, Nat.toList_repr, ← hvalue, Text.toDigits_ofDigits hne hdigits hlength]
  · rintro ⟨n, hle, rfl⟩
    have hcs : (toString n).toList = Nat.toDigits 10 n := by
      rw [Nat.toString_eq_repr, Nat.toList_repr]
    refine ⟨⟨?_, ?_⟩, n, ?_⟩
    · rw [decide_eq_true_eq, hcs, Nat.length_toDigits_le_iff (by decide) (by decide)]
      omega
    · obtain rfl | hpos := Nat.eq_zero_or_pos n
      · decide
      · simp [Text.head?_toDigits hpos]
    · rw [Text.digitsOnly?_toString]
      exact Text.upTo_eq_some_iff.mpr ⟨rfl, hle⟩

/-- No digit is a separator. -/
theorem not_mem_toString {separator : Char} (h : separator.isDigit = false) (n : Nat) :
    separator ∉ (toString n).toList := fun hmem => by
  rw [Text.isDigit_of_mem_toString hmem] at h
  cases h

theorem isVersion4_iff_splitOn {cs : List Char} :
    isVersion4 cs ↔ (cs.splitOn '.').length = 4 ∧ ∀ part ∈ cs.splitOn '.', isByte part := by
  simp [isVersion4, splitAt_eq_splitOn]

/-- An address of version 4 is four numbers up to 255 with points between them. -/
theorem isVersion4_iff {cs : List Char} :
    isVersion4 cs ↔ ∃ bytes : List Nat, bytes.length = 4 ∧ (∀ n ∈ bytes, n ≤ 255) ∧
      cs = ['.'].intercalate (bytes.map fun n => (toString n).toList) := by
  rw [isVersion4_iff_splitOn]
  constructor
  · rintro ⟨hlength, hbytes⟩
    have hexists : ∃ bytes : List Nat, (∀ n ∈ bytes, n ≤ 255) ∧
        cs.splitOn '.' = bytes.map fun n => (toString n).toList := by
      generalize cs.splitOn '.' = parts at hbytes
      induction parts with
      | nil => exact ⟨[], nofun, rfl⟩
      | cons part rest ih =>
        obtain ⟨n, hle, rfl⟩ := isByte_iff.mp (hbytes part List.mem_cons_self)
        obtain ⟨bytes, hall, rfl⟩ := ih (fun p hp => hbytes p (List.mem_cons_of_mem _ hp))
        exact ⟨n :: bytes, List.forall_mem_cons.mpr ⟨hle, hall⟩, rfl⟩
    obtain ⟨bytes, hall, hparts⟩ := hexists
    refine ⟨bytes, ?_, hall, ?_⟩
    · rw [hparts, List.length_map] at hlength
      exact hlength
    · rw [← hparts, List.intercalate_splitOn]
  · rintro ⟨bytes, hlength, hall, rfl⟩
    have hne : bytes.map (fun n => (toString n).toList) ≠ [] := by
      rw [Ne, List.map_eq_nil_iff]
      rintro rfl
      cases hlength
    have hpoint : ∀ part ∈ bytes.map (fun n => (toString n).toList), '.' ∉ part := by
      intro part hpart
      obtain ⟨n, _, rfl⟩ := List.mem_map.mp hpart
      exact not_mem_toString rfl n
    rw [List.splitOn_intercalate '.' hpoint hne, List.length_map]
    refine ⟨hlength, fun part hpart => ?_⟩
    obtain ⟨n, hn, rfl⟩ := List.mem_map.mp hpart
    exact isByte_iff.mpr ⟨n, hall n hn, rfl⟩

/-! ### Version 6 -/

/-- How many groups texts stand for: one each, and two for an address of version 4 at the end. -/
inductive Groups : List (List Char) → Nat → Prop
  | none : Groups [] 0
  | version4 {cs : List Char} (h : isVersion4 cs) : Groups [cs] 2
  | group {cs : List Char} {rest : List (List Char)} {n : Nat} (h : isGroup cs)
    (hrest : Groups rest n) : Groups (cs :: rest) (n + 1)

theorem isGroup_eq_false {c : Char} (hc : c = ':' ∨ c = '.') {cs : List Char} (h : c ∈ cs) :
    isGroup cs = false := by
  refine Bool.eq_false_iff.mpr fun hgroup => ?_
  simp only [isGroup, Bool.and_eq_true, List.all_eq_true] at hgroup
  have hdigit := hgroup.2 c h
  obtain rfl | rfl := hc <;> revert hdigit <;> decide

theorem mem_intercalate {c separator : Char} {parts : List (List Char)}
    (h : c ∈ [separator].intercalate parts) : c = separator ∨ ∃ part ∈ parts, c ∈ part := by
  induction parts with
  | nil => cases h
  | cons part rest ih =>
    cases rest with
    | nil =>
      rw [List.intercalate_singleton] at h
      exact .inr ⟨part, List.mem_cons_self, h⟩
    | cons next rest =>
      rw [List.intercalate_cons_cons, List.mem_append, List.mem_append, List.mem_singleton] at h
      obtain (h | h) | h := h
      · exact .inr ⟨part, List.mem_cons_self, h⟩
      · exact .inl h
      · obtain h | ⟨part, hpart, hc⟩ := ih h
        · exact .inl h
        · exact .inr ⟨part, List.mem_cons_of_mem _ hpart, hc⟩

theorem not_mem_of_isVersion4 {cs : List Char} (h : isVersion4 cs) : ':' ∉ cs := by
  obtain ⟨bytes, _, _, rfl⟩ := isVersion4_iff.mp h
  intro hmem
  obtain hcolon | ⟨part, hpart, hcolon⟩ := mem_intercalate hmem
  · cases hcolon
  · obtain ⟨n, _, rfl⟩ := List.mem_map.mp hpart
    exact not_mem_toString rfl n hcolon

theorem mem_of_isVersion4 {cs : List Char} (h : isVersion4 cs) : '.' ∈ cs := by
  refine Decidable.byContradiction fun hmem => ?_
  have hlength := (isVersion4_iff_splitOn.mp h).1
  rw [List.splitOn_eq_singleton hmem] at hlength
  cases hlength

theorem groups?_eq_some_iff {parts : List (List Char)} {n : Nat} :
    groups? parts = some n ↔ Groups parts n := by
  constructor
  · intro h
    induction parts generalizing n with
    | nil =>
      cases h
      exact .none
    | cons part rest ih =>
      cases rest with
      | nil =>
        rw [groups?] at h
        split at h
        · rename_i hgroup
          cases h
          exact .group hgroup .none
        · split at h
          · rename_i hversion
            cases h
            exact .version4 hversion
          · cases h
      | cons next rest =>
        rw [groups?] at h
        split at h
        · rename_i hgroup
          obtain ⟨m, hm, rfl⟩ := Option.map_eq_some_iff.mp h
          exact .group hgroup (ih hm)
        · cases h
        · exact List.cons_ne_nil next rest
  · intro h
    induction h with
    | none => rfl
    | version4 h => rw [groups?, isGroup_eq_false (.inr rfl) (mem_of_isVersion4 h),
      if_neg Bool.false_ne_true, if_pos h]
    | @group cs rest n h hrest ih =>
      cases rest with
      | nil =>
        cases hrest
        rw [groups?, if_pos h]
      | cons next rest =>
        rw [groups?, if_pos h, ih]
        · rfl
        · exact List.cons_ne_nil next rest

theorem Groups.not_mem {parts : List (List Char)} {n : Nat} (h : Groups parts n) :
    ∀ part ∈ parts, ':' ∉ part := by
  induction h with
  | none => exact nofun
  | version4 h =>
    intro part hpart
    rw [List.mem_singleton.mp hpart]
    exact not_mem_of_isVersion4 h
  | group h _ ih =>
    refine List.forall_mem_cons.mpr ⟨fun hmem => ?_, ih⟩
    rw [isGroup_eq_false (.inl rfl) hmem] at h
    cases h

/-- The parts of a text; there is one part even where there is no text. -/
def spread (parts : List (List Char)) : List (List Char) := if parts = [] then [[]] else parts

theorem spread_ne_nil (parts : List (List Char)) : spread parts ≠ [] := by
  unfold spread
  split
  · exact List.cons_ne_nil _ _
  · assumption

theorem spread_of_ne_nil {parts : List (List Char)} (h : parts ≠ []) : spread parts = parts :=
  if_neg h

theorem splitOn_intercalate_colon {parts : List (List Char)} (h : ∀ part ∈ parts, ':' ∉ part) :
    ([':'].intercalate parts).splitOn ':' = spread parts := by
  unfold spread
  split
  · rename_i hnil
    rw [hnil, List.intercalate_nil, List.splitOn_nil]
  · rename_i hne
    exact List.splitOn_intercalate ':' h hne

theorem intercalate_spread (parts : List (List Char)) :
    [':'].intercalate (spread parts) = [':'].intercalate parts := by
  unfold spread
  split
  · rename_i hnil
    rw [hnil, List.intercalate_nil, List.intercalate_singleton]
  · rfl

theorem intercalate_append {front back : List (List Char)} (hfront : front ≠ [])
    (hback : back ≠ []) :
    [':'].intercalate (front ++ back) =
      [':'].intercalate front ++ ':' :: [':'].intercalate back := by
  induction front with
  | nil => exact absurd rfl hfront
  | cons part rest ih =>
    cases rest with
    | nil =>
      rw [List.singleton_append, List.intercalate_cons_of_ne_nil hback, List.intercalate_singleton]
      simp
    | cons next rest =>
      rw [List.cons_append, List.cons_append, List.intercalate_cons_cons,
        List.intercalate_cons_cons, ← List.cons_append, ih (List.cons_ne_nil next rest)]
      simp

/-- Groups are left out where two colons stand side by side. -/
structure IsCut (cs : List Char) (front back : List (List Char)) (n : Nat) : Prop where
  text : cs = [':'].intercalate front ++ ':' :: ':' :: [':'].intercalate back
  groups : ∀ group ∈ front, isGroup group
  more : Groups back n
  room : front.length + n < 8

theorem groupsBefore?_eq_some_iff {parts : List (List Char)} (hne : parts ≠ []) {n : Nat} :
    groupsBefore? parts = some n ↔
      ∃ front, parts = spread front ∧ (∀ group ∈ front, isGroup group) ∧ front.length = n := by
  have hempty : isGroup [] = false := rfl
  unfold groupsBefore?
  constructor
  · intro h
    split at h
    · rename_i hparts
      cases h
      exact ⟨[], hparts, nofun, rfl⟩
    · split at h
      · rename_i hall
        cases h
        exact ⟨parts, (spread_of_ne_nil hne).symm, List.all_eq_true.mp hall, rfl⟩
      · cases h
  · rintro ⟨front, rfl, hall, rfl⟩
    cases front with
    | nil => rfl
    | cons group rest =>
      have hgroup : group :: rest ≠ [[]] := by
        intro heq
        have hfirst := hall group List.mem_cons_self
        rw [(List.cons.inj heq).1, hempty] at hfirst
        cases hfirst
      rw [spread_of_ne_nil (List.cons_ne_nil _ _), if_neg hgroup,
        if_pos (List.all_eq_true.mpr hall)]

theorem groupsAfter?_eq_some_iff {parts : List (List Char)} {n : Nat} :
    groupsAfter? parts = some n ↔ ∃ back, parts = spread back ∧ Groups back n := by
  unfold groupsAfter?
  constructor
  · intro h
    split at h
    · cases h
    · rename_i hne
      split at h
      · rename_i hparts
        cases h
        exact ⟨[], hparts, .none⟩
      · exact ⟨parts, (spread_of_ne_nil hne).symm, groups?_eq_some_iff.mp h⟩
  · rintro ⟨back, rfl, hback⟩
    cases back with
    | nil =>
      cases hback
      rfl
    | cons part rest =>
      have hpart : part :: rest ≠ [[]] := by
        rintro heq
        rw [heq] at hback
        cases hback with
        | version4 h => exact absurd h (by decide)
        | group h _ => cases h
      rw [spread_of_ne_nil (List.cons_ne_nil part rest), if_neg (List.cons_ne_nil part rest),
        if_neg hpart, groups?_eq_some_iff]
      exact hback

/-- A cut text is made of its parts again, with an empty one between the two colons. -/
theorem intercalate_cut (front back : List (List Char)) :
    [':'].intercalate (spread front ++ [] :: spread back) =
      [':'].intercalate front ++ ':' :: ':' :: [':'].intercalate back := by
  rw [intercalate_append (spread_ne_nil front) (List.cons_ne_nil _ _),
    List.intercalate_cons_of_ne_nil (spread_ne_nil back), intercalate_spread, intercalate_spread]
  rfl

theorem splitOn_cut {front back : List (List Char)} (hfront : ∀ part ∈ front, ':' ∉ part)
    (hback : ∀ part ∈ back, ':' ∉ part) :
    ([':'].intercalate front ++ ':' :: ':' :: [':'].intercalate back).splitOn ':' =
      spread front ++ [] :: spread back := by
  rw [List.splitOn_append_cons_self, splitOn_intercalate_colon hfront,
    List.splitOn_cons_eq_if_modifyHead, if_pos (beq_self_eq_true ':'),
    splitOn_intercalate_colon hback]

theorem exists_isCutAt_iff {cs : List Char} :
    (∃ i, isCutAt (cs.splitOn ':') i) ↔ ∃ front back n, IsCut cs front back n := by
  constructor
  · rintro ⟨i, h⟩
    simp only [isCutAt, Bool.and_eq_true, decide_eq_true_eq, beq_iff_eq] at h
    obtain ⟨⟨hi, hpart⟩, hroom⟩ := h
    obtain ⟨hlength, hempty⟩ := List.getElem?_eq_some_iff.mp hpart
    split at hroom
    · rename_i n m hn hm
      have hparts : cs.splitOn ':' =
          (cs.splitOn ':').take i ++ [] :: (cs.splitOn ':').drop (i + 1) := by
        rw [← hempty, ← List.drop_eq_getElem_cons, List.take_append_drop]
      have hfront : (cs.splitOn ':').take i ≠ [] := by
        rw [Ne, List.take_eq_nil_iff, not_or]
        exact ⟨hi, List.splitOn_ne_nil ':' cs⟩
      obtain ⟨front, hfrontEq, hgroups, rfl⟩ := (groupsBefore?_eq_some_iff hfront).mp hn
      obtain ⟨back, hbackEq, hmore⟩ := groupsAfter?_eq_some_iff.mp hm
      rw [hfrontEq, hbackEq] at hparts
      refine ⟨front, back, m, ?_, hgroups, hmore, decide_eq_true_iff.mp hroom⟩
      rw [← intercalate_cut, ← hparts, List.intercalate_splitOn]
    · cases hroom
  · rintro ⟨front, back, n, rfl, hgroups, hmore, hroom⟩
    have hcolon : ∀ part ∈ front, ':' ∉ part := by
      intro part hpart hmem
      have hgroup := hgroups part hpart
      rw [isGroup_eq_false (.inl rfl) hmem] at hgroup
      cases hgroup
    refine ⟨(spread front).length, ?_⟩
    rw [splitOn_cut hcolon hmore.not_mem]
    have hfront := (groupsBefore?_eq_some_iff (spread_ne_nil front)).mpr ⟨front, rfl, hgroups, rfl⟩
    have hback := groupsAfter?_eq_some_iff.mpr ⟨back, rfl, hmore⟩
    have hne : (spread front).length ≠ 0 := by
      rw [Ne, List.length_eq_zero_iff]
      exact spread_ne_nil front
    have hdrop : (spread front ++ [] :: spread back).drop ((spread front).length + 1) =
        spread back := by
      simp [List.drop_append]
    simp [isCutAt, hne, hfront, hback, hroom, hdrop]

/-- An address of version 6 is eight groups with colons between them, or less than eight around
two colons. -/
theorem isVersion6_iff {cs : List Char} :
    isVersion6 cs ↔ (∃ parts, Groups parts 8 ∧ cs = [':'].intercalate parts) ∨
      ∃ front back n, IsCut cs front back n := by
  have hcut : (List.range (cs.splitOn ':').length).any (isCutAt (cs.splitOn ':')) ↔
      ∃ i, isCutAt (cs.splitOn ':') i := by
    rw [List.any_eq_true]
    refine ⟨fun ⟨i, _, h⟩ => ⟨i, h⟩, fun ⟨i, h⟩ => ⟨i, List.mem_range.mpr ?_, h⟩⟩
    simp only [isCutAt, Bool.and_eq_true, beq_iff_eq] at h
    exact (List.getElem?_eq_some_iff.mp h.1.2).1
  have hfull : groups? (cs.splitOn ':') = some 8 ↔
      ∃ parts, Groups parts 8 ∧ cs = [':'].intercalate parts := by
    rw [groups?_eq_some_iff]
    constructor
    · exact fun h => ⟨_, h, List.intercalate_splitOn ':' |>.symm⟩
    · rintro ⟨parts, hparts, rfl⟩
      have hne : parts ≠ [] := by
        rintro rfl
        cases hparts
      rwa [splitOn_intercalate_colon hparts.not_mem, spread_of_ne_nil hne]
  rw [isVersion6, splitAt_eq_splitOn, Bool.or_eq_true, decide_eq_true_eq, hcut, hfull,
    exists_isCutAt_iff]

example : ["1:2:3:4:5:6:7:8", "::", "1::8", "::ffff:10.0.0.1", "1:2:3:4:5:6:7::"].all
    (fun s => isVersion6 s.toList) ∧
    ["1:2:3:4:5:6:7:8:9", "1::2::3", "1:2:3:4:5:6:7:8::", ":::", "1.2.3.4::"].all
    (fun s => !isVersion6 s.toList) := by
  decide

end BoundSql.Address
