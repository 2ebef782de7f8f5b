import BoundSql.Proofs.Toml.Scalars
import Mathlib.Data.List.Nodup

/-! Values in writing.  `Value.write` writes a value on one line, arrays and tables with a comma
between their items.  A written value reads back before whatever ends it (`value_write`). -/

namespace BoundSql.Toml

/-! ### Keys -/

/-- A key that needs no quotes is written without them. -/
def writeKey (key : String) : List Char :=
  if key ≠ "" ∧ key.toList.all isKeyChar then key.toList else writeString key

theorem isKeyChar_quote {c : Char} (h : isKeyChar c) : c ≠ '"' ∧ c ≠ '\'' := by
  constructor <;> rintro rfl <;> cases h

theorem key_writeKey (name : String) {rest : List Char}
    (h : ∀ c ∈ rest.head?, isKeyChar c = false) :
    key (writeKey name ++ rest) = some (name, rest) := by
  rw [writeKey]
  split
  · rename_i hbare
    obtain ⟨hne, hall⟩ := hbare
    have hchars : ∀ c ∈ name.toList, isKeyChar c := List.all_eq_true.mp hall
    obtain ⟨c, cs, hname⟩ :=
      List.exists_cons_of_ne_nil fun heq => hne (String.toList_eq_nil_iff.mp heq)
    have hquote : lineString (name.toList ++ rest) = none := by
      obtain ⟨hdouble, hsingle⟩ := isKeyChar_quote (hchars c (by simp [hname]))
      rw [hname, List.cons_append, lineString]
      · exact fun _ heq => hdouble (List.cons.inj heq).1
      · exact fun _ heq => hsingle (List.cons.inj heq).1
    have hempty : name.toList.isEmpty = false := by rw [hname]; rfl
    rw [key, hquote]
    simp only [Text.span_append hchars h, hempty, Bool.false_eq_true, if_false,
      String.ofList_toList]
  · rw [key, lineString_writeString]

theorem keyPath_writeKey (name : String) {rest : List Char}
    (h : ∀ c ∈ rest.head?, isKeyChar c = false) (hdot : ∀ c ∈ (skipBlanks rest).head?, c ≠ '.') :
    keyPath (writeKey name ++ rest) = some (⟨[], name⟩, rest) := by
  have hmore : moreKeys rest = some ([], rest) := by
    rw [moreKeys]
    split
    · rename_i heq
      exact absurd rfl (hdot '.' (by rw [heq]; rfl))
    · rfl
  simp [keyPath, key_writeKey name h, hmore, maxDepth, KeyPath.ofKeys]

/-- A written key starts with no gap, no bracket and no byte order mark. -/
theorem exists_writeKey (name : String) :
    ∃ c cs, writeKey name = c :: cs ∧ isGap c = false ∧ c ∉ ['[', '\x7d', '\ufeff'] := by
  rw [writeKey]
  split
  · rename_i hbare
    obtain ⟨hne, hall⟩ := hbare
    obtain ⟨c, cs, hname⟩ :=
      List.exists_cons_of_ne_nil fun heq => hne (String.toList_eq_nil_iff.mp heq)
    have hc : isKeyChar c := List.all_eq_true.mp hall c (by simp [hname])
    refine ⟨c, cs, hname, ?_, ?_⟩
    · simp only [isGap, List.contains_cons, List.contains_nil, Bool.or_false,
        Bool.or_eq_false_iff, beq_eq_false_iff_ne]
      refine ⟨?_, ?_, ?_, ?_, ?_⟩ <;> rintro rfl <;> cases hc
    · simp only [List.mem_cons, List.not_mem_nil, or_false, not_or]
      refine ⟨?_, ?_, ?_⟩ <;> rintro rfl <;> cases hc
  · exact ⟨'"', _, rfl, rfl, by decide⟩

/-! ### Items -/

/-- Items with a comma and a blank between them. -/
def writeItems (items : List (List Char)) : List Char := [',', ' '].intercalate items

section Items

variable {β : Type} {close : Char} {item : Reader β} {write : β → List Char}

/-- A text that is passed over in front of an item. -/
def Skipped (gap : List Char) : Prop := ∀ cs, skipGap false (gap ++ cs) = skipGap false cs

theorem skipped_nil : Skipped [] := fun _ => rfl

theorem skipped_blank : Skipped [' '] := fun cs => by
  rw [List.singleton_append, skipGap.eq_4]
  · rfl
  · decide
  · intro rest hblank
    cases hblank

/-- An item that is read up to a closing character or a comma is the last one or the first of
several. -/
theorem commaItems_item {text more : List Char} {x : β} {d : Char}
    (hstart : ∃ c cs, text = c :: cs ∧ isGap c = false ∧ c ≠ close)
    (hitem : item (text ++ d :: more) = some (x, d :: more)) (hd : isGap d = false)
    {gap : List Char} (hgap : Skipped gap) :
    commaItems close item (gap ++ (text ++ d :: more)) =
      if d = close then some ([x], more)
      else if d = ',' then (commaItems close item more).map fun (xs, rest) => (x :: xs, rest)
      else none := by
  obtain ⟨c, cs, rfl, hc, hclose⟩ := hstart
  rw [List.cons_append] at hitem ⊢
  have hshorter : more.length < (gap ++ c :: (cs ++ d :: more)).length := by
    simp only [List.length_append, List.length_cons]
    omega
  rw [commaItems, hgap, skipGap_of_not_isGap hc]
  simp only [hclose, if_false, hitem]
  rw [skipGap_of_not_isGap hd]
  simp only [hshorter, and_true, dite_eq_ite]

/-- Items read back one after the other if each of them does before what ends it. -/
theorem commaItems_writeItems (hclose : close = ']' ∨ close = '\x7d') {xs : List β}
    (hstart : ∀ x ∈ xs, ∃ c cs, write x = c :: cs ∧ isGap c = false ∧ c ≠ close)
    (hread : ∀ x ∈ xs, ∀ rest, Ends rest → item (write x ++ rest) = some (x, rest))
    {gap : List Char} (hgap : Skipped gap) (rest : List Char) :
    commaItems close item (gap ++ (writeItems (xs.map write) ++ close :: rest)) =
      some (xs, rest) := by
  have hgapClose : isGap close = false := by obtain rfl | rfl := hclose <;> rfl
  have hend : isEnd close := by obtain rfl | rfl := hclose <;> rfl
  have hcomma : (',' : Char) ≠ close := by obtain rfl | rfl := hclose <;> decide
  induction xs generalizing gap with
  | nil =>
    rw [commaItems, List.map_nil, writeItems, List.intercalate_nil, List.nil_append, hgap,
      skipGap_of_not_isGap hgapClose]
    simp
  | cons x xs ih =>
    have hfirst := hstart x List.mem_cons_self
    have hitem := hread x List.mem_cons_self
    cases xs with
    | nil =>
      rw [List.map_singleton, writeItems, List.intercalate_singleton,
        commaItems_item hfirst (hitem _ (ends_cons hend rest)) hgapClose hgap, if_pos rfl]
    | cons y ys =>
      have hcons : writeItems ((x :: y :: ys).map write) ++ close :: rest =
          write x ++ ',' :: ([' '] ++ (writeItems ((y :: ys).map write) ++ close :: rest)) := by
        simp [writeItems]
      have hrest := ih (fun z hz => hstart z (List.mem_cons_of_mem x hz))
        (fun z hz => hread z (List.mem_cons_of_mem x hz)) skipped_blank
      rw [hcons, commaItems_item hfirst (hitem _ (ends_cons rfl _)) rfl hgap, if_neg hcomma,
        if_pos rfl, hrest]
      rfl

end Items

/-! ### Values -/

/-- A key with what is written for its value. -/
def writePair (key : String) (text : List Char) : List Char := writeKey key ++ " = ".toList ++ text

namespace Value

mutual

/-- A value on one line.  Only values that are plain have a written form. -/
def write : Value → List Char
  | .string s => writeString s
  | .integer n => (toString n).toList
  | .boolean b => (if b then "true" else "false").toList
  | .array items => '[' :: (writeItems (writeAll items) ++ [']'])
  | .table entries => '\x7b' :: (writeItems (writeEntries entries) ++ ['\x7d'])
  | .malformed | .float _ | .moment => []

def writeAll : List Value → List (List Char)
  | [] => []
  | v :: rest => v.write :: writeAll rest

def writeEntries : List (String × Value) → List (List Char)
  | [] => []
  | (key, v) :: rest => writePair key v.write :: writeEntries rest

end

mutual

/-- Texts, integers and truth values, and arrays and tables of these, nested at most `depth` deep.
No table has two entries of one key. -/
def IsPlain (depth : Nat) : Value → Prop
  | .string _ | .integer _ | .boolean _ => True
  | .array items => ∃ inner, depth = inner + 1 ∧ ArePlain inner items
  | .table entries =>
    (entries.map Prod.fst).Nodup ∧ ∃ inner, depth = inner + 1 ∧ EntriesArePlain inner entries
  | .malformed | .float _ | .moment => False

def ArePlain (depth : Nat) : List Value → Prop
  | [] => True
  | v :: rest => v.IsPlain depth ∧ ArePlain depth rest

def EntriesArePlain (depth : Nat) : List (String × Value) → Prop
  | [] => True
  | (_, v) :: rest => v.IsPlain depth ∧ EntriesArePlain depth rest

end

theorem writeAll_eq_map (items : List Value) : writeAll items = items.map write := by
  induction items with
  | nil => rfl
  | cons v rest ih => rw [writeAll, ih, List.map_cons]

theorem writeEntries_eq_map (entries : List (String × Value)) :
    writeEntries entries = entries.map fun e => writePair e.1 e.2.write := by
  induction entries with
  | nil => rfl
  | cons e rest ih => rw [writeEntries, ih, List.map_cons]

theorem arePlain_iff {depth : Nat} {items : List Value} :
    ArePlain depth items ↔ ∀ v ∈ items, v.IsPlain depth := by
  induction items with
  | nil => simp [ArePlain]
  | cons v rest ih => simp [ArePlain, ih]

theorem entriesArePlain_iff {depth : Nat} {entries : List (String × Value)} :
    EntriesArePlain depth entries ↔ ∀ e ∈ entries, e.2.IsPlain depth := by
  induction entries with
  | nil => simp [EntriesArePlain]
  | cons e rest ih => simp [EntriesArePlain, ih]

/-- What is written for a plain value starts with no gap and with no closing bracket. -/
theorem exists_write {depth : Nat} {v : Value} (h : v.IsPlain depth) :
    ∃ c cs, v.write = c :: cs ∧ isGap c = false ∧ c ≠ ']' := by
  cases v with
  | string s => exact ⟨'"', _, rfl, rfl, by decide⟩
  | integer n =>
    obtain ⟨c, cs, hcons⟩ := List.exists_cons_of_ne_nil (toList_toString_ne_nil n)
    have hmem : c ∈ (toString n).toList := hcons ▸ List.mem_cons_self
    have hbare : isBare c := isBare_of_mem_toString hmem
    refine ⟨c, cs, hcons, ?_, ?_⟩
    · simp only [isGap, List.contains_cons, List.contains_nil, Bool.or_false,
        Bool.or_eq_false_iff, beq_eq_false_iff_ne]
      refine ⟨?_, ?_, ?_, ?_, ?_⟩ <;> rintro rfl <;> cases hbare
    · rintro rfl
      cases hbare
  | boolean b =>
    cases b with
    | true => exact ⟨'t', _, rfl, rfl, by decide⟩
    | false => exact ⟨'f', _, rfl, rfl, by decide⟩
  | array items => exact ⟨'[', _, rfl, rfl, by decide⟩
  | table entries => exact ⟨'\x7b', _, rfl, rfl, by decide⟩
  | _ => exact h.elim

end Value

/-- Whether `skip` passes over one blank and stops. -/
def Skips (skip : List Char → List Char) : Prop :=
  ∀ {c : Char}, isGap c = false → ∀ cs, skip (' ' :: c :: cs) = c :: cs

theorem skips_skipGap : Skips (skipGap false) := fun {c} hc cs => by
  have hblank := skipped_blank (c :: cs)
  rwa [List.singleton_append, skipGap_of_not_isGap hc] at hblank

theorem skipBlanks_of_not_isGap {c : Char} (h : isGap c = false) (cs : List Char) :
    skipBlanks (c :: cs) = c :: cs := by
  simp only [isGap, List.contains_cons, List.contains_nil, Bool.or_false, Bool.or_eq_false_iff,
    beq_eq_false_iff_ne] at h
  rw [skipBlanks, List.dropWhile_cons_of_neg (by simp [isGapBlank, h.1, h.2.1])]

theorem skips_skipBlanks : Skips skipBlanks := fun {c} hc cs => by
  rw [skipBlanks, List.dropWhile_cons_of_pos rfl]
  exact skipBlanks_of_not_isGap hc cs

theorem pair_writePair {skip : List Char → List Char} (hskip : Skips skip) {value : Reader Value}
    (name : String) {v : Value} {text rest : List Char}
    (hstart : ∃ c cs, text = c :: cs ∧ isGap c = false)
    (hvalue : value (text ++ rest) = some (v, rest)) :
    pair skip value (writePair name text ++ rest) = some ((⟨[], name⟩, v), rest) := by
  obtain ⟨c, cs, rfl, hc⟩ := hstart
  have htext : writePair name (c :: cs) ++ rest =
      writeKey name ++ (' ' :: '=' :: ' ' :: (c :: cs ++ rest)) := by
    simp [writePair]
  have hpath : keyPath (writeKey name ++ (' ' :: '=' :: ' ' :: (c :: cs ++ rest))) =
      some (⟨[], name⟩, ' ' :: '=' :: ' ' :: (c :: cs ++ rest)) :=
    keyPath_writeKey name (by simp [isKeyChar]) (by simp [skipBlanks, isGapBlank])
  have hsign : isGap '=' = false := rfl
  rw [List.cons_append] at hvalue
  rw [htext, pair, hpath]
  simp only [Option.bind_eq_bind, Option.bind_some, List.cons_append, hskip hsign, hskip hc, hvalue]
  rfl

/-! ### Tables -/

namespace Entries

/-- Values under plain keys. -/
def ofValues (entries : List (String × Value)) : Entries := entries.map fun e => (e.1, .value e.2)

theorem values_ofValues (entries : List (String × Value)) :
    values (ofValues entries) = entries := by
  induction entries with
  | nil => rfl
  | cons e rest ih =>
    rw [ofValues, List.map_cons, values, nodeValue]
    exact congrArg (e :: ·) ih

theorem values_append (a b : Entries) : values (a ++ b) = values a ++ values b := by
  induction a with
  | nil => rfl
  | cons e rest ih => rw [List.cons_append, values, ih, values, List.cons_append]

theorem lookup_eq_none {entries : Entries} {name : String}
    (h : name ∉ entries.map Prod.fst) : entries.lookup name = none := by
  rw [List.lookup_eq_none_iff]
  intro e he
  rw [bne_iff_ne]
  rintro rfl
  exact h (List.mem_map_of_mem he)

theorem assignAt_plain {entries : Entries} {name : String} (h : name ∉ entries.map Prod.fst)
    (v : Value) :
    assignAt ⟨[], name⟩ v .header entries = some (entries ++ [(name, .value v)]) := by
  rw [assignAt, changeAt, assign, lookup_eq_none h]
  rfl

/-- Values under different plain keys make up a table one after the other. -/
theorem foldlM_assignAt {entries : Entries} {added : List (String × Value)}
    (h : (entries.map Prod.fst ++ added.map Prod.fst).Nodup) :
    (added.map fun e => ((⟨[], e.1⟩ : KeyPath), e.2)).foldlM
        (fun entries (path, v) => assignAt path v .header entries) entries =
      some (entries ++ ofValues added) := by
  induction added generalizing entries with
  | nil => simp [ofValues]
  | cons e rest ih =>
    obtain ⟨name, v⟩ := e
    have hnew : name ∉ entries.map Prod.fst := fun hmem =>
      (List.nodup_append.mp h).2.2 _ hmem _ List.mem_cons_self rfl
    have hrest : ((entries ++ [(name, Node.value v)]).map Prod.fst ++
        rest.map Prod.fst).Nodup := by
      simpa using h
    rw [List.map_cons, List.foldlM_cons]
    simp only [assignAt_plain hnew, Option.bind_eq_bind, Option.bind_some, ih hrest]
    rw [ofValues, ofValues, List.map_cons, List.append_assoc, List.singleton_append]

theorem ofPairs_plain {entries : List (String × Value)} (h : (entries.map Prod.fst).Nodup) :
    ofPairs (entries.map fun e => (⟨[], e.1⟩, e.2)) = some entries := by
  rw [ofPairs, foldlM_assignAt (by simpa using h), List.nil_append, Option.map_some,
    values_ofValues]

end Entries

/-! ### Reading back -/

/-- The entries of a written table read back as pairs if their values do. -/
theorem commaItems_entries {depth : Nat} {entries : List (String × Value)}
    (hplain : ∀ e ∈ entries, e.2.IsPlain depth)
    (hread : ∀ e ∈ entries, ∀ rest, Ends rest →
      value depth (e.2.write ++ rest) = some (e.2, rest)) (rest : List Char) :
    commaItems '\x7d' (pair (skipGap false) (value depth))
        (writeItems (entries.map fun e => writePair e.1 e.2.write) ++ '\x7d' :: rest) =
      some (entries.map fun e => (⟨[], e.1⟩, e.2), rest) := by
  have hwrite : (entries.map fun e => writePair e.1 e.2.write) =
      (entries.map fun e => ((⟨[], e.1⟩ : KeyPath), e.2)).map fun p =>
        writePair p.1.last p.2.write := by
    rw [List.map_map]
    rfl
  rw [hwrite]
  refine commaItems_writeItems (.inr rfl) ?_ ?_ skipped_nil rest
  · intro p _
    obtain ⟨c, cs, hkey, hgap, hother⟩ := exists_writeKey p.1.last
    have hclose : c ≠ '\x7d' := fun heq => hother (by simp [heq])
    exact ⟨c, _, by rw [writePair, hkey]; rfl, hgap, hclose⟩
  · intro p hp more hmore
    obtain ⟨e, he, rfl⟩ := List.mem_map.mp hp
    obtain ⟨c, cs, hvalue, hgap, _⟩ := Value.exists_write (hplain e he)
    exact pair_writePair skips_skipGap e.1 ⟨c, cs, hvalue, hgap⟩ (hread e he more hmore)

/-- A written value reads back, whatever stands behind its end. -/
theorem value_write {depth : Nat} {v : Value} (h : v.IsPlain depth) {rest : List Char}
    (hrest : Ends rest) : value depth (v.write ++ rest) = some (v, rest) := by
  induction depth generalizing v rest with
  | zero =>
    cases v with
    | string s => exact value_writeString 0 s hrest
    | integer n => exact value_toString 0 n hrest
    | boolean b => exact value_boolean 0 b hrest
    | array items =>
      obtain ⟨_, hdepth, _⟩ := h
      cases hdepth
    | table entries =>
      obtain ⟨_, _, hdepth, _⟩ := h
      cases hdepth
    | _ => exact h.elim
  | succ depth ih =>
    cases v with
    | string s => exact value_writeString _ s hrest
    | integer n => exact value_toString _ n hrest
    | boolean b => exact value_boolean _ b hrest
    | array items =>
      obtain ⟨inner, hdepth, hitems⟩ := h
      cases hdepth
      rw [Value.arePlain_iff] at hitems
      have hread := commaItems_writeItems (.inl rfl)
        (fun v hv => Value.exists_write (hitems v hv)) (fun v hv _ => ih (hitems v hv))
        skipped_nil rest
      rw [Value.write, Value.writeAll_eq_map, List.cons_append, List.append_assoc,
        List.singleton_append, value]
      rw [List.nil_append] at hread
      rw [hread]
      rfl
    | table entries =>
      obtain ⟨hkeys, inner, hdepth, hentries⟩ := h
      cases hdepth
      rw [Value.entriesArePlain_iff] at hentries
      have hread := commaItems_entries hentries (fun e he _ => ih (hentries e he)) rest
      rw [Value.write, Value.writeEntries_eq_map, List.cons_append, List.append_assoc,
        List.singleton_append, value, hread]
      simp only [Option.bind_eq_bind, Option.bind_some, Entries.ofPairs_plain hkeys]
      rfl
    | _ => exact h.elim

end BoundSql.Toml
