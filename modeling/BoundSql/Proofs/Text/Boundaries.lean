import BoundSql.Proofs.Text.Utf8
import Mathlib.Data.Nat.Find

/-! Where a text may be cut.  A boundary between characters is seen from the byte behind it, and
`Longest` is the longest beginning of a text within a number of bytes.  The last boundary that is
within the limit ends it (`cutBytes_encode`). -/

namespace BoundSql.Text

theorem continuation?_eq_none_iff {b : UInt8} :
    continuation? b = none ↔ b.toNat < 0x80 ∨ 0xBF < b.toNat := by
  rw [Option.eq_none_iff_forall_ne_some]
  simp only [ne_eq, continuation?_eq_some_iff]
  constructor
  · intro h
    have hb := h (b.toNat - 0x80)
    omega
  · rintro h n ⟨hb, hn⟩
    omega

/-- The first byte of a character is no continuation byte, and all others are. -/
theorem CharBytes.exists_lead {c : Char} {bytes : List UInt8} (h : CharBytes c bytes) :
    ∃ a rest, bytes = a :: rest ∧ continuation? a = none ∧ ∀ b ∈ rest, continuation? b ≠ none := by
  cases h with
  | one lead value =>
    exact ⟨_, _, rfl, continuation?_eq_none_iff.mpr (by omega), by simp⟩
  | two lead next value =>
    exact ⟨_, _, rfl, continuation?_eq_none_iff.mpr (by omega), by simp [next]⟩
  | three lead next last value shortest =>
    exact ⟨_, _, rfl, continuation?_eq_none_iff.mpr (by omega), by simp [next, last]⟩
  | four lead next third last value shortest =>
    exact ⟨_, _, rfl, continuation?_eq_none_iff.mpr (by omega), by simp [next, third, last]⟩

/-- Whether a character ends in front of a position, as the byte behind it shows. -/
def isBoundary (bytes : List UInt8) (n : Nat) : Bool :=
  n == 0 || n == bytes.length || bytes[n]?.any fun b => (continuation? b).isNone

theorem isBoundary_zero (bytes : List UInt8) : isBoundary bytes 0 = true := rfl

theorem isBoundary_append {front rest : List UInt8} (hfront : front ≠ [])
    (hrest : ∀ b ∈ rest.head?, continuation? b = none) (n : Nat) :
    isBoundary (front ++ rest) (front.length + n) = isBoundary rest n := by
  have hne : front.length + n ≠ 0 := by
    have := List.length_pos_iff.mpr hfront
    omega
  have hget : (front ++ rest)[front.length + n]? = rest[n]? := by
    rw [List.getElem?_append_right (Nat.le_add_right _ _), Nat.add_sub_cancel_left]
  have hend : (front.length + n == (front ++ rest).length) = (n == rest.length) := by
    rw [List.length_append, Bool.eq_iff_iff, beq_iff_eq, beq_iff_eq]
    omega
  rw [isBoundary, isBoundary, hget, hend, beq_false_of_ne hne, Bool.false_or]
  cases n with
  | zero => cases rest <;> simp_all
  | succ n => rfl

/-- There is no boundary in front of a continuation byte. -/
theorem isBoundary_inside {a : UInt8} {front : List UInt8}
    (hfront : ∀ b ∈ front, continuation? b ≠ none) (rest : List UInt8) {n : Nat} (hn : n ≠ 0)
    (hlt : n < (a :: front).length) : isBoundary (a :: front ++ rest) n = false := by
  obtain ⟨m, rfl⟩ := Nat.exists_eq_succ_of_ne_zero hn
  have hm : m < front.length := Nat.lt_of_succ_lt_succ hlt
  have hget : (a :: front ++ rest)[m + 1]? = some front[m] := by
    rw [List.cons_append, List.getElem?_cons_succ, List.getElem?_append_left hm,
      List.getElem?_eq_getElem hm]
  have hcont : (continuation? front[m]).isNone = false := by
    rw [Option.isNone_eq_false_iff, Option.isSome_iff_ne_none]
    exact hfront _ (List.getElem_mem hm)
  have hend : m + 1 ≠ (a :: front ++ rest).length := by
    simp
    omega
  rw [isBoundary, hget, Option.any_some, hcont, beq_false_of_ne hn, beq_false_of_ne hend]
  rfl

theorem head?_encodeChars (cs : List Char) :
    ∀ b ∈ (encodeChars cs).head?, continuation? b = none := by
  intro b hb
  cases cs with
  | nil => cases hb
  | cons c cs =>
    obtain ⟨a, rest, hc, ha, _⟩ := (charBytes_utf8EncodeChar c).exists_lead
    rw [encodeChars_cons, hc] at hb
    cases hb
    exact ha

theorem exists_beginning_cons_iff {c : Char} {cs : List Char} {n : Nat} :
    (∃ front, front <+: c :: cs ∧ (encodeChars front).length = n) ↔
      n = 0 ∨ ∃ front, front <+: cs ∧ c.utf8Size + (encodeChars front).length = n := by
  simp only [List.prefix_cons_iff]
  constructor
  · rintro ⟨_, rfl | ⟨front, rfl, hfront⟩, rfl⟩
    · exact .inl rfl
    · exact .inr ⟨front, hfront, (length_encodeChars_cons c front).symm⟩
  · rintro (rfl | ⟨front, hfront, rfl⟩)
    · exact ⟨[], .inl rfl, rfl⟩
    · exact ⟨c :: front, .inr ⟨front, rfl, hfront⟩, length_encodeChars_cons c front⟩

/-- The boundaries in the bytes of characters are where beginnings end. -/
theorem isBoundary_encodeChars_iff {cs : List Char} {n : Nat} :
    isBoundary (encodeChars cs) n ↔ ∃ front, front <+: cs ∧ (encodeChars front).length = n := by
  induction cs generalizing n with
  | nil =>
    have hnil : isBoundary (encodeChars []) n ↔ n = 0 := by simp [isBoundary, encodeChars]
    simp only [hnil, List.prefix_nil, exists_eq_left]
    exact eq_comm
  | cons c cs ih =>
    obtain ⟨a, inner, hc, _, hinner⟩ := (charBytes_utf8EncodeChar c).exists_lead
    have hsize : (a :: inner).length = c.utf8Size := by rw [← hc, String.length_utf8EncodeChar]
    rw [exists_beginning_cons_iff, encodeChars_cons, hc]
    by_cases hzero : n = 0
    · subst hzero
      exact ⟨fun _ => .inl rfl, fun _ => isBoundary_zero _⟩
    · by_cases hlt : n < (a :: inner).length
      · -- Inside the first character: no beginning is so long and no longer.
        rw [isBoundary_inside hinner _ hzero hlt]
        refine ⟨nofun, ?_⟩
        rintro (rfl | ⟨front, _, rfl⟩)
        · exact absurd rfl hzero
        · omega
      · obtain ⟨m, rfl⟩ := Nat.exists_eq_add_of_le (Nat.le_of_not_lt hlt)
        rw [isBoundary_append (List.cons_ne_nil _ _) (head?_encodeChars cs), ih]
        rw [or_iff_right hzero, hsize]
        simp only [Nat.add_left_cancel_iff]

/-! ### Beginnings within a limit -/

theorem encodeChars_prefix_iff {front cs : List Char} :
    encodeChars front <+: encodeChars cs ↔ front <+: cs := by
  constructor
  · rintro ⟨rest, hrest⟩
    have hbytes : front.utf8Encode ++ rest.toByteArray = cs.utf8Encode := by
      have h := congrArg List.toByteArray hrest
      rwa [List.toByteArray_append] at h
    exact List.isPrefix_of_utf8Encode_append_eq_utf8Encode _ hbytes
  · rintro ⟨rest, rfl⟩
    exact ⟨encodeChars rest, List.flatMap_append.symm⟩

theorem length_takeBytes_le (limit : Nat) (cs : List Char) :
    (encodeChars (takeBytes limit cs)).length ≤ limit := by
  rw [length_encodeChars]
  exact utf8Size_takeBytes_le limit cs

/-- `takeBytes` takes every beginning that is within the limit. -/
theorem prefix_takeBytes {limit : Nat} {front cs : List Char} (h : front <+: cs)
    (hfits : (encodeChars front).length ≤ limit) : front <+: takeBytes limit cs := by
  induction cs generalizing limit front with
  | nil =>
    rw [List.prefix_nil.mp h]
    exact List.nil_prefix
  | cons c cs ih =>
    obtain rfl | ⟨front, rfl, htail⟩ := List.prefix_cons_iff.mp h
    · exact List.nil_prefix
    · rw [length_encodeChars_cons] at hfits
      rw [takeBytes, if_pos (by omega)]
      exact List.cons_prefix_cons.mpr ⟨rfl, ih htail (by omega)⟩

theorem takeBytes_eq_self_iff {limit : Nat} {cs : List Char} :
    takeBytes limit cs = cs ↔ (encodeChars cs).length ≤ limit := by
  constructor
  · intro h
    rw [← h]
    exact length_takeBytes_le limit cs
  · intro h
    have hall := prefix_takeBytes (List.prefix_refl cs) h
    exact (takeBytes_isPrefix limit cs).eq_of_length_le hall.length_le

/-- Less than a character of the limit is given away. -/
theorem lt_length_takeBytes {limit : Nat} {cs : List Char} (h : limit < (encodeChars cs).length) :
    limit < (encodeChars (takeBytes limit cs)).length + 4 := by
  induction cs generalizing limit with
  | nil => exact absurd h (Nat.not_lt_zero limit)
  | cons c cs ih =>
    rw [length_encodeChars_cons] at h
    rw [takeBytes]
    split
    · rename_i hc
      have hrest : limit - c.utf8Size <
          (encodeChars (takeBytes (limit - c.utf8Size) cs)).length + 4 := ih (by omega)
      rw [length_encodeChars_cons]
      omega
    · rename_i hc
      exact Nat.lt_of_lt_of_le (Nat.lt_of_not_le hc) (Nat.le_add_left_of_le c.utf8Size_le_four)

/-- The last boundary that is within the limit is where the longest beginning ends. -/
theorem findGreatest_isBoundary (limit : Nat) (cs : List Char) :
    Nat.findGreatest (fun n => isBoundary (encodeChars cs) n) limit =
      (encodeChars (takeBytes limit cs)).length := by
  rw [Nat.findGreatest_eq_iff]
  refine ⟨length_takeBytes_le limit cs, fun _ => ?_, fun n hlt hle hn => ?_⟩
  · exact isBoundary_encodeChars_iff.mpr ⟨_, takeBytes_isPrefix limit cs, rfl⟩
  · obtain ⟨front, hfront, rfl⟩ := isBoundary_encodeChars_iff.mp hn
    have hlonger := (encodeChars_prefix_iff.mpr (prefix_takeBytes hfront hle)).length_le
    omega

theorem encode_withinBytes (limit : Nat) (s : String) :
    encode (withinBytes limit s) = encodeChars (takeBytes limit s.toList) := by
  rw [encode_eq, withinBytes, String.toList_ofList]

/-- The bytes of a text up to the last boundary that is within a limit. -/
def cutBytes (limit : Nat) (bytes : List UInt8) : List UInt8 :=
  if bytes.length ≤ limit then bytes
  else bytes.take (Nat.findGreatest (fun n => isBoundary bytes n) limit)

theorem cutBytes_encode (limit : Nat) (s : String) :
    cutBytes limit (encode s) = encode (withinBytes limit s) := by
  rw [encode_withinBytes, encode_eq, cutBytes]
  split
  · rename_i h
    rw [takeBytes_eq_self_iff.mpr h]
  · have hbeginning := encodeChars_prefix_iff.mpr (takeBytes_isPrefix limit s.toList)
    rw [findGreatest_isBoundary]
    exact (List.prefix_iff_eq_take.mp hbeginning).symm

/-- The longest text whose bytes begin those of another and are within a limit. -/
structure Longest (limit : Nat) (s t : String) : Prop where
  beginning : encode t <+: encode s
  fits : (encode t).length ≤ limit
  longest (u : String) : encode u <+: encode s → (encode u).length ≤ limit →
    encode u <+: encode t

theorem longest_withinBytes (limit : Nat) (s : String) : Longest limit s (withinBytes limit s) := by
  refine ⟨?_, ?_, fun u hu hfits => ?_⟩
  · rw [encode_withinBytes, encode_eq, encodeChars_prefix_iff]
    exact takeBytes_isPrefix limit _
  · rw [encode_withinBytes]
    exact length_takeBytes_le limit _
  · rw [encode_eq, encode_eq, encodeChars_prefix_iff] at hu
    rw [encode_eq] at hfits
    rw [encode_withinBytes, encode_eq, encodeChars_prefix_iff]
    exact prefix_takeBytes hu hfits

theorem withinBytes_eq_self_iff {limit : Nat} {s : String} :
    withinBytes limit s = s ↔ (encode s).length ≤ limit := by
  rw [encode_eq, ← takeBytes_eq_self_iff, withinBytes, ← String.toList_inj, String.toList_ofList]

theorem lt_length_withinBytes {limit : Nat} {s : String} (h : limit < (encode s).length) :
    limit < (encode (withinBytes limit s)).length + 4 := by
  rw [encode_eq] at h
  rw [encode_withinBytes]
  exact lt_length_takeBytes h

end BoundSql.Text
