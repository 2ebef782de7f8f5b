import BoundSql.Proofs.Toml.Values

/-! Documents in writing.  A `Document` has values under keys and then tables under headers, and
`Document.write` writes each of its lines.  A written document reads back as its entries, in their
order (`parse?_write`). -/

namespace BoundSql.Toml

/-- Values under keys, and then tables with headers. -/
structure Document where
  pairs : List (String × Value) := []
  sections : List (String × List (String × Value)) := []

namespace Line

/-- A line with keys that have no points. -/
inductive IsPlain : Line → Prop
  | pair (key : String) {v : Value} (h : v.IsPlain maxDepth) : IsPlain (.pair ⟨[], key⟩ v)
  | header (key : String) : IsPlain (.header ⟨[], key⟩)

/-- The text of a line that is plain. -/
def write : Line → List Char
  | .pair path v => writePair path.last v.write
  | .header path => '[' :: (writeKey path.last ++ [']'])
  | .arrayHeader _ => []

theorem exists_write {l : Line} (h : l.IsPlain) :
    ∃ c cs, l.write = c :: cs ∧ isGap c = false ∧ c ≠ '\ufeff' := by
  cases h with
  | pair key h =>
    obtain ⟨c, cs, hkey, hgap, hother⟩ := exists_writeKey key
    exact ⟨c, _, by rw [write, writePair, hkey]; rfl, hgap, fun heq => hother (by simp [heq])⟩
  | header key => exact ⟨'[', _, rfl, rfl, by decide⟩

theorem line_write {l : Line} (h : l.IsPlain) (rest : List Char) :
    line (l.write ++ '\n' :: rest) = some (l, '\n' :: rest) := by
  cases h with
  | @pair key v h =>
    obtain ⟨c, cs, hkey, hgap, hother⟩ := exists_writeKey key
    obtain ⟨d, ds, hvalue, hd, _⟩ := Value.exists_write h
    have hbracket : c ≠ '[' := fun heq => hother (by simp [heq])
    have hread := pair_writePair skips_skipBlanks key ⟨d, ds, hvalue, hd⟩
      (value_write h (ends_cons (c := '\n') rfl rest))
    rw [write]
    rw [writePair, hkey] at hread ⊢
    simp only [List.cons_append] at hread ⊢
    rw [line, hread]
    · rfl
    · rintro more heq
      exact hbracket (List.cons.inj heq).1
    · rintro more heq
      exact hbracket (List.cons.inj heq).1
  | header key =>
    obtain ⟨c, cs, hkey, hgap, hother⟩ := exists_writeKey key
    have hbracket : c ≠ '[' := fun heq => hother (by simp [heq])
    have hpath : keyPath (writeKey key ++ (']' :: '\n' :: rest)) =
        some (⟨[], key⟩, ']' :: '\n' :: rest) :=
      keyPath_writeKey key (by simp [isKeyChar]) (by simp [skipBlanks, isGapBlank])
    have hclose : isGap ']' = false := rfl
    rw [write, List.cons_append, List.append_assoc, List.singleton_append]
    rw [hkey] at hpath ⊢
    simp only [List.cons_append] at hpath ⊢
    rw [line, skipBlanks_of_not_isGap hgap, hpath]
    · simp only [Option.bind_eq_bind, Option.bind_some, skipBlanks_of_not_isGap hclose]
      rfl
    · rintro more heq
      exact hbracket (List.cons.inj heq).1

end Line

/-- Lines with a line break after each of them. -/
def writeLines (ls : List Line) : List Char := ls.flatMap fun l => l.write ++ ['\n']

theorem lines?_writeLines {ls : List Line} (h : ∀ l ∈ ls, l.IsPlain) :
    lines? (writeLines ls) = some ls := by
  induction ls with
  | nil =>
    rw [writeLines, List.flatMap_nil, lines?]
    rfl
  | cons l ls ih =>
    have hl := h l List.mem_cons_self
    obtain ⟨c, cs, hwrite, hgap, _⟩ := Line.exists_write hl
    have hline := Line.line_write hl (writeLines ls)
    have hrest := ih fun m hm => h m (List.mem_cons_of_mem l hm)
    have hend : endOfLine? ('\n' :: writeLines ls) = some (writeLines ls) := rfl
    have hcons : writeLines (l :: ls) = l.write ++ '\n' :: writeLines ls := by
      simp [writeLines]
    rw [hcons]
    rw [hwrite, List.cons_append] at hline ⊢
    rw [lines?, skipGap_of_not_isGap hgap]
    have hshorter : (writeLines ls).length < (c :: (cs ++ '\n' :: writeLines ls)).length := by
      simp only [List.length_append, List.length_cons]
      omega
    simp only [hline, hend, hrest, Option.bind_eq_bind, Option.bind_some, hshorter, if_true]
    rfl

/-! ### Tables under headers -/

namespace Entries

theorem lookup_append_none {entries : Entries} {name : String}
    (h : name ∉ entries.map Prod.fst) (node : Node) :
    (entries ++ [(name, node)]).lookup name = some node := by
  rw [List.lookup_append, lookup_eq_none h]
  simp

theorem put_append {entries : Entries} {name : String} (h : name ∉ entries.map Prod.fst)
    (old new : Node) : put name new (entries ++ [(name, old)]) = entries ++ [(name, new)] := by
  induction entries with
  | nil => simp [put]
  | cons e rest ih =>
    obtain ⟨key, node⟩ := e
    have hkey : key ≠ name := fun heq => h (by simp [heq])
    rw [List.cons_append, put, if_neg hkey, ih fun hmem => h (List.mem_cons_of_mem _ hmem),
      List.cons_append]

end Entries

/-- Where the pairs of a draft go: at `current`, `inside` puts entries into the whole. -/
def Entries.Opens (current : List String) (inside : Entries → Entries) : Prop :=
  ∀ (change : Origin → Entries → Option Entries) (entries : Entries),
    Entries.changeAt false change current .header (inside entries) =
      (change .header entries).map inside

theorem Entries.opens_document : Opens [] fun entries => entries := fun change entries => by
  rw [changeAt]
  cases change .header entries <;> rfl

theorem Entries.opens_section {entries : Entries} {name : String}
    (h : name ∉ entries.map Prod.fst) :
    Opens [name] fun inner => entries ++ [(name, .table .header inner)] := fun change inner => by
  rw [changeAt, lookup_append_none h]
  simp only [Bool.false_and, Bool.false_eq_true, if_false, changeAt, put_append h]

namespace Draft

/-- Pairs under different keys go to the end of the table that is open. -/
theorem foldlM_add_pairs {current : List String} {inside : Entries → Entries}
    (hopens : Entries.Opens current inside) {entries : Entries} {pairs : List (String × Value)}
    (h : (entries.map Prod.fst ++ pairs.map Prod.fst).Nodup) :
    (pairs.map fun e => Line.pair ⟨[], e.1⟩ e.2).foldlM add ⟨inside entries, current⟩ =
      some ⟨inside (entries ++ Entries.ofValues pairs), current⟩ := by
  induction pairs generalizing entries with
  | nil => simp [Entries.ofValues]
  | cons e rest ih =>
    obtain ⟨key, v⟩ := e
    have hnew : key ∉ entries.map Prod.fst := fun hmem =>
      (List.nodup_append.mp h).2.2 _ hmem _ List.mem_cons_self rfl
    have hrest : ((entries ++ [(key, Node.value v)]).map Prod.fst ++
        rest.map Prod.fst).Nodup := by
      simpa using h
    have hadd : add ⟨inside entries, current⟩ (.pair ⟨[], key⟩ v) =
        some ⟨inside (entries ++ [(key, .value v)]), current⟩ := by
      rw [add, hopens, Entries.assignAt_plain hnew]
      rfl
    rw [List.map_cons, List.foldlM_cons, hadd, Option.bind_eq_bind, Option.bind_some, ih hrest,
      Entries.ofValues, Entries.ofValues, List.map_cons, List.append_assoc, List.singleton_append]

/-- The lines of a table under a header. -/
def sectionLines (name : String) (pairs : List (String × Value)) : List Line :=
  .header ⟨[], name⟩ :: pairs.map fun e => .pair ⟨[], e.1⟩ e.2

/-- A table under a header of its own. -/
def sectionNode (pairs : List (String × Value)) : Node := .table .header (Entries.ofValues pairs)

theorem foldlM_add_section {entries : Entries} {name : String} (h : name ∉ entries.map Prod.fst)
    {pairs : List (String × Value)} (hkeys : (pairs.map Prod.fst).Nodup) (current : List String) :
    (sectionLines name pairs).foldlM add ⟨entries, current⟩ =
      some ⟨entries ++ [(name, sectionNode pairs)], [name]⟩ := by
  have hheader : add ⟨entries, current⟩ (.header ⟨[], name⟩) =
      some ⟨entries ++ [(name, .table .header [])], [name]⟩ := by
    rw [add, Entries.changeAt, Entries.define, Entries.lookup_eq_none h]
    rfl
  have hpairs := foldlM_add_pairs (Entries.opens_section h)
    (by simpa using hkeys : (([] : Entries).map Prod.fst ++ pairs.map Prod.fst).Nodup)
  rw [sectionLines, List.foldlM_cons, hheader, Option.bind_eq_bind, Option.bind_some, hpairs]
  rfl

theorem exists_foldlM_add_sections {sections : List (String × List (String × Value))}
    (hsections : ∀ s ∈ sections, (s.2.map Prod.fst).Nodup) {entries : Entries}
    (h : (entries.map Prod.fst ++ sections.map Prod.fst).Nodup) (current : List String) :
    ∃ last, (sections.flatMap fun s => sectionLines s.1 s.2).foldlM add ⟨entries, current⟩ =
      some ⟨entries ++ sections.map fun s => (s.1, sectionNode s.2), last⟩ := by
  induction sections generalizing entries current with
  | nil => exact ⟨current, by simp⟩
  | cons s rest ih =>
    obtain ⟨name, pairs⟩ := s
    have hnew : name ∉ entries.map Prod.fst := fun hmem =>
      (List.nodup_append.mp h).2.2 _ hmem _ List.mem_cons_self rfl
    have hrest : ((entries ++ [(name, sectionNode pairs)]).map Prod.fst ++
        rest.map Prod.fst).Nodup := by
      simpa using h
    obtain ⟨last, hlast⟩ := ih (fun t ht => hsections t (List.mem_cons_of_mem _ ht)) hrest [name]
    refine ⟨last, ?_⟩
    rw [List.flatMap_cons, List.foldlM_append,
      foldlM_add_section hnew (hsections _ List.mem_cons_self), Option.bind_eq_bind,
      Option.bind_some, hlast, List.map_cons, List.append_assoc, List.singleton_append]

theorem values_sectionNodes (sections : List (String × List (String × Value))) :
    Entries.values (sections.map fun s => (s.1, sectionNode s.2)) =
      sections.map fun s => (s.1, .table s.2) := by
  induction sections with
  | nil => rfl
  | cons s rest ih =>
    rw [List.map_cons, List.map_cons, Entries.values, ih, sectionNode, Entries.nodeValue,
      Entries.values_ofValues]

end Draft

/-! ### Documents -/

namespace Document

/-- The keys of a document with what they stand for. -/
def entries (d : Document) : List (String × Value) :=
  d.pairs ++ d.sections.map fun s => (s.1, .table s.2)

def lines (d : Document) : List Line :=
  (d.pairs.map fun e => .pair ⟨[], e.1⟩ e.2) ++
    d.sections.flatMap fun s => Draft.sectionLines s.1 s.2

def write (d : Document) : List Char := writeLines d.lines

/-- A document without two entries of one key, in which all values are plain. -/
structure IsPlain (d : Document) : Prop where
  keys : (d.entries.map Prod.fst).Nodup
  sectionKeys : ∀ s ∈ d.sections, (s.2.map Prod.fst).Nodup
  values : ∀ e ∈ d.pairs, e.2.IsPlain maxDepth
  sectionValues : ∀ s ∈ d.sections, ∀ e ∈ s.2, e.2.IsPlain maxDepth

theorem IsPlain.lines {d : Document} (h : d.IsPlain) : ∀ l ∈ d.lines, l.IsPlain := by
  intro l hl
  obtain hl | hl := List.mem_append.mp hl
  · obtain ⟨e, he, rfl⟩ := List.mem_map.mp hl
    exact .pair e.1 (h.values e he)
  · obtain ⟨s, hs, hl⟩ := List.mem_flatMap.mp hl
    obtain rfl | hl := List.mem_cons.mp hl
    · exact .header s.1
    · obtain ⟨e, he, rfl⟩ := List.mem_map.mp hl
      exact .pair e.1 (h.sectionValues s hs e he)

theorem dropMark_write {d : Document} (h : d.IsPlain) : dropMark d.write = d.write := by
  rw [write]
  cases hlines : d.lines with
  | nil => rfl
  | cons l rest =>
    obtain ⟨c, cs, hwrite, _, hmark⟩ := Line.exists_write (h.lines l (by simp [hlines]))
    rw [writeLines, List.flatMap_cons, hwrite, List.cons_append, dropMark]
    rintro more heq
    exact hmark (List.cons.inj heq).1

/-- A written document reads back as its entries. -/
theorem parse?_write {d : Document} (h : d.IsPlain) :
    parse? (String.ofList d.write) = some d.entries := by
  have hkeys : (([] : Entries).map Prod.fst ++ d.pairs.map Prod.fst).Nodup := by
    have hnodup := h.keys
    rw [entries, List.map_append] at hnodup
    simpa using (List.nodup_append.mp hnodup).1
  have hpairs := Draft.foldlM_add_pairs Entries.opens_document hkeys
  have hsections : ((Entries.ofValues d.pairs).map Prod.fst ++ d.sections.map Prod.fst).Nodup := by
    have hnodup := h.keys
    rw [entries, List.map_append, List.map_map] at hnodup
    simpa [Entries.ofValues, Function.comp_def] using hnodup
  obtain ⟨last, hlast⟩ := Draft.exists_foldlM_add_sections h.sectionKeys hsections []
  have hlines : lines? d.write = some d.lines := lines?_writeLines h.lines
  have hdraft : d.lines.foldlM Draft.add {} =
      some ⟨Entries.ofValues d.pairs ++ d.sections.map fun s => (s.1, Draft.sectionNode s.2),
        last⟩ := by
    rw [List.nil_append] at hpairs
    rw [lines, List.foldlM_append, hpairs]
    exact hlast
  rw [parse?, String.toList_ofList, dropMark_write h, hlines]
  simp only [Option.bind_eq_bind, Option.bind_some, hdraft, Entries.values_append,
    Entries.values_ofValues, Draft.values_sectionNodes]
  rfl

end Document

end BoundSql.Toml
