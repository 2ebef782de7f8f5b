import BoundSql.Proofs.Text.Utf8
import BoundSql.Proofs.Toml.Documents
import BoundSql.Settings.Document

/-! Settings in writing.  `Settings.document` writes a URL, and a size and a way of recycling if
they are given.  A reader of the document, as a text or as the bytes of a file, gets these settings
with the defaults for what is not given, or hears what is wrong with them
(`Settings.ofToml_document`, `Settings.ofFile_document`). -/

namespace BoundSql

open Toml

def Recycling.name : Recycling → String
  | .fast => "fast"
  | .verified => "verified"

namespace Settings

/-- What a document says about the pool. -/
def poolEntries (size : Option Nat) (recycling : Option Recycling) : List (String × Value) :=
  (size.toList.map fun n => ("max_size", .integer n)) ++
    recycling.toList.map fun r => ("recycling", .string r.name)

/-- The document that gives a URL and what is known of the pool. -/
def document (url : String) (size : Option Nat) (recycling : Option Recycling) : Document where
  sections := [("database", [("url", .string url)]), ("pool", poolEntries size recycling)]

/-- The settings that a document gives, with the defaults for what it leaves out. -/
def withDefaults (url : String) (size : Option Nat) (recycling : Option Recycling) : Settings :=
  let defaults : Settings := { url }
  ⟨url, size.getD defaults.maxSize, recycling.getD defaults.recycling⟩

variable {url : String} {size : Option Nat} {recycling : Option Recycling}

theorem keys_poolEntries :
    ((poolEntries size recycling).map Prod.fst).Sublist ["max_size", "recycling"] := by
  cases size with
  | none =>
    cases recycling with
    | none => exact List.nil_sublist _
    | some r => exact .cons _ (.cons_cons _ .slnil)
  | some n =>
    cases recycling with
    | none => exact .cons_cons _ (.cons _ .slnil)
    | some r => exact .cons_cons _ (.cons_cons _ .slnil)

theorem isPlain_document : (document url size recycling).IsPlain where
  keys := by
    have hkeys : (document url size recycling).entries.map Prod.fst = ["database", "pool"] := rfl
    rw [hkeys]
    decide
  sectionKeys := by
    intro s hs
    simp only [document, List.mem_cons, List.not_mem_nil, or_false] at hs
    obtain rfl | rfl := hs
    · exact List.nodup_singleton "url"
    · exact keys_poolEntries.nodup (by decide)
  values := nofun
  sectionValues := by
    intro s hs e he
    simp only [document, List.mem_cons, List.not_mem_nil, or_false] at hs
    obtain rfl | rfl := hs
    · obtain rfl := List.mem_singleton.mp he
      trivial
    · simp only [poolEntries, List.mem_append, List.mem_map] at he
      obtain ⟨n, _, rfl⟩ | ⟨r, _, rfl⟩ := he <;> trivial

theorem asSize_of_lt {n : Nat} (h : n < 2 ^ 64) : asSize (.integer n) = .ok n := by
  have hbound : (n : Int) < (Nat.pow 2 64 : Nat) := by
    exact_mod_cast h
  rw [asSize, if_pos ⟨Int.natCast_nonneg n, hbound⟩, Int.toNat_natCast]

/-- Entries whose keys are in order stay as they are. -/
theorem byKey_of_keys {entries : List (String × Value)}
    (h : (entries.map Prod.fst).Pairwise (· ≤ ·)) : byKey entries = entries :=
  List.mergeSort_of_pairwise ((List.pairwise_map.mp h).imp fun hle => decide_eq_true hle)

theorem asDatabase_url :
    asDatabase (.table [("url", .string url)]) = .ok url := by
  rw [asDatabase, byKey_of_keys (List.pairwise_singleton _ _)]
  rfl

theorem asPool_poolEntries (h : ∀ n ∈ size, n < 2 ^ 64) :
    asPool (.table (poolEntries size recycling)) = .ok ⟨size, recycling⟩ := by
  have hsorted : ["max_size", "recycling"].Pairwise (· ≤ ·) := by decide
  rw [asPool, byKey_of_keys (hsorted.sublist keys_poolEntries)]
  have hrecycling : ∀ found : PoolSection,
      poolOfEntries found (recycling.toList.map fun r => ("recycling", .string r.name)) =
        .ok { found with recycling := recycling.or found.recycling } := by
    intro found
    cases recycling with
    | none => rfl
    | some r => cases r <;> rfl
  cases size with
  | none =>
    exact (hrecycling {}).trans (by simp)
  | some n =>
    have hsize : poolOfEntries {} (poolEntries (some n) recycling) =
        poolOfEntries { maxSize := some n }
          (recycling.toList.map fun r => ("recycling", .string r.name)) := by
      rw [poolEntries, Option.toList_some, List.map_singleton, List.singleton_append, poolOfEntries,
        if_pos rfl, asSize_of_lt (h n rfl)]
      rfl
    rw [hsize, hrecycling]
    simp

theorem byKey_entries :
    byKey (document url size recycling).entries =
      [("database", .table [("url", .string url)]),
        ("pool", .table (poolEntries size recycling))] := by
  have hsorted : ["database", "pool"].Pairwise (· ≤ ·) := by decide
  exact byKey_of_keys hsorted

theorem ofEntries_document (h : ∀ n ∈ size, n < 2 ^ 64) :
    ofEntries none {} (byKey (document url size recycling).entries) =
      .ok (withDefaults url size recycling) := by
  have hdatabase : ofEntries none {} (byKey (document url size recycling).entries) =
      ofEntries (some url) {} [("pool", .table (poolEntries size recycling))] := by
    rw [byKey_entries, ofEntries, if_pos rfl, asDatabase_url]
    rfl
  rw [hdatabase, ofEntries, if_neg (by decide), if_pos rfl, asPool_poolEntries h]
  rfl

/-- A reader of a written document gets the settings, or hears what is wrong with them. -/
theorem ofToml_document (h : ∀ n ∈ size, n < 2 ^ 64) :
    ofToml (String.ofList (document url size recycling).write) =
      (withDefaults url size recycling).validate := by
  simp only [ofToml, Document.parse?_write isPlain_document, ofEntries_document h]

example : String.ofList (document "postgres://db" (some 4) (some .verified)).write =
    "[database]\nurl = \"postgres://db\"\n[pool]\nmax_size = 4\nrecycling = \"verified\"\n" := by
  decide

/-- The same holds of the bytes of a file, whose name a complaint carries. -/
theorem ofFile_document (h : ∀ n ∈ size, n < 2 ^ 64) (name : String) :
    ofFile name (some (Text.encode (String.ofList (document url size recycling).write))) =
      (withDefaults url size recycling).validate.mapError (.inFile name) := by
  rw [ofFile, Text.decode?_eq_some_iff.mpr rfl]
  exact congrArg (Except.mapError (SettingsFault.inFile name)) (ofToml_document h)

end Settings

end BoundSql
