import BoundSql.Text.Utf8
import Mathlib.Tactic.SplitIfs

/-! Reading UTF-8.  `CharBytes` says which bytes are those of a character, and `decode?` reads bytes
as a text exactly when they are the bytes of that text (`decode?_eq_some_iff`). -/

namespace BoundSql.Text

theorem toList_loop (bytes : ByteArray) (i : Nat) (front : List UInt8) :
    ByteArray.toList.loop bytes i front = front.reverse ++ bytes.data.toList.drop i := by
  fun_induction ByteArray.toList.loop bytes i front with
  | case1 i front h ih =>
    have hi : i < bytes.data.toList.length := h
    have hget : bytes.get! i = bytes.data.toList[i] := by
      obtain ⟨data⟩ := bytes
      exact getElem!_pos data i h
    rw [ih, List.drop_eq_getElem_cons hi, hget, List.reverse_cons, List.append_assoc]
    rfl
  | case2 i front h =>
    have hi : bytes.data.toList.length ≤ i := Nat.le_of_not_lt h
    rw [List.drop_eq_nil_of_le hi, List.append_nil]

/-- The bytes of characters. -/
def encodeChars (cs : List Char) : List UInt8 := cs.flatMap String.utf8EncodeChar

theorem encode_eq (s : String) : encode s = encodeChars s.toList := by
  have hbytes : s.toUTF8 = (encodeChars s.toList).toByteArray := String.utf8Encode_toList.symm
  rw [encode, ByteArray.toList, toList_loop, hbytes, List.toList_data_toByteArray]
  rfl

theorem encodeChars_cons (c : Char) (cs : List Char) :
    encodeChars (c :: cs) = String.utf8EncodeChar c ++ encodeChars cs := rfl

theorem length_encodeChars_cons (c : Char) (cs : List Char) :
    (encodeChars (c :: cs)).length = c.utf8Size + (encodeChars cs).length := by
  rw [encodeChars_cons, List.length_append, String.length_utf8EncodeChar]

theorem length_encodeChars (cs : List Char) :
    (encodeChars cs).length = cs.foldr (fun c n => c.utf8Size + n) 0 := by
  induction cs with
  | nil => rfl
  | cons c cs ih => rw [length_encodeChars_cons, List.foldr_cons, ih]

/-! ### Reading bytes -/

theorem scalar?_eq_some_iff {low high n : Nat} {c : Char} :
    scalar? low high n = some c ↔ c.toNat = n ∧ low ≤ n ∧ n ≤ high := by
  have hbounds : (low ≤ n && n ≤ high) = true ↔ low ≤ n ∧ n ≤ high := by simp
  by_cases h : n.isValidChar
  · have hchar : Char.ofNatAux n h = c ↔ c.toNat = n := by
      rw [← Char.toNat_inj]
      exact eq_comm
    rw [scalar?, dif_pos h]
    by_cases hin : low ≤ n ∧ n ≤ high
    · rw [if_pos (hbounds.mpr hin), Option.some.injEq, hchar, and_iff_left hin]
    · rw [if_neg (mt hbounds.mp hin)]
      exact ⟨nofun, fun hc => absurd hc.2 hin⟩
  · rw [scalar?, dif_neg h]
    refine ⟨nofun, ?_⟩
    rintro ⟨rfl, _⟩
    exact absurd c.valid h

theorem continuation?_eq_some_iff {b : UInt8} {n : Nat} :
    continuation? b = some n ↔ b.toNat = n + 0x80 ∧ n < 64 := by
  have hbounds : (0x80 ≤ b && b ≤ 0xBF) = true ↔ 128 ≤ b.toNat ∧ b.toNat ≤ 191 := by
    simp [UInt8.le_iff_toNat_le]
  unfold continuation?
  split
  · rename_i h
    rw [hbounds] at h
    rw [Option.some.injEq]
    omega
  · rename_i h
    rw [hbounds] at h
    refine ⟨nofun, fun hb => ?_⟩
    omega

theorem ofNat_eq_iff {n : Nat} (h : n < 256) {b : UInt8} : b = UInt8.ofNat n ↔ b.toNat = n := by
  rw [← UInt8.toNat_inj, UInt8.toNat_ofNat', Nat.mod_eq_of_lt h]

/-- The bytes of a character: a lead byte, and continuation bytes of six bits each. -/
inductive CharBytes (c : Char) : List UInt8 → Prop where
  | one {a : UInt8} (lead : a.toNat ≤ 0x7F) (value : c.toNat = a.toNat) : CharBytes c [a]
  | two {a b : UInt8} {x : Nat} (lead : 0xC2 ≤ a.toNat ∧ a.toNat ≤ 0xDF)
      (next : continuation? b = some x) (value : c.toNat = (a.toNat - 0xC0) * 64 + x) :
      CharBytes c [a, b]
  | three {a b d : UInt8} {x y : Nat} (lead : 0xE0 ≤ a.toNat ∧ a.toNat ≤ 0xEF)
      (next : continuation? b = some x) (last : continuation? d = some y)
      (value : c.toNat = ((a.toNat - 0xE0) * 64 + x) * 64 + y) (shortest : 0x800 ≤ c.toNat) :
      CharBytes c [a, b, d]
  | four {a b d e : UInt8} {x y z : Nat} (lead : 0xF0 ≤ a.toNat ∧ a.toNat ≤ 0xF4)
      (next : continuation? b = some x) (third : continuation? d = some y)
      (last : continuation? e = some z)
      (value : c.toNat = (((a.toNat - 0xF0) * 64 + x) * 64 + y) * 64 + z)
      (shortest : 0x10000 ≤ c.toNat) : CharBytes c [a, b, d, e]

theorem toNat_le (c : Char) : c.toNat ≤ 0x10FFFF := by
  rcases c.valid with h | h
  · exact Nat.le_trans (Nat.le_of_lt h) (by decide)
  · exact Nat.le_of_lt_succ h.2

theorem charBytes_utf8EncodeChar (c : Char) : CharBytes c (String.utf8EncodeChar c) := by
  have hmax := toNat_le c
  have hcont : ∀ n, continuation? (UInt8.ofNat (n % 64 + 128)) = some (n % 64) := by
    intro n
    rw [continuation?_eq_some_iff, UInt8.toNat_ofNat']
    omega
  have hval : c.val.toNat = c.toNat := rfl
  unfold String.utf8EncodeChar
  rw [hval]
  dsimp only
  split_ifs
  · refine .one ?_ ?_ <;> rw [UInt8.toNat_ofNat'] <;> omega
  · refine .two ?_ (hcont _) ?_ <;> rw [UInt8.toNat_ofNat'] <;> omega
  · refine .three ?_ (hcont _) (hcont _) ?_ ?_
    · rw [UInt8.toNat_ofNat']
      omega
    · rw [UInt8.toNat_ofNat']
      omega
    · omega
  · refine .four ?_ (hcont _) (hcont _) (hcont _) ?_ ?_
    · rw [UInt8.toNat_ofNat']
      omega
    · rw [UInt8.toNat_ofNat']
      omega
    · omega

theorem CharBytes.eq {c : Char} {bytes : List UInt8} (h : CharBytes c bytes) :
    bytes = String.utf8EncodeChar c := by
  have hval : c.val.toNat = c.toNat := rfl
  unfold String.utf8EncodeChar
  rw [hval]
  dsimp only
  cases h with
  | one lead value =>
    rw [if_pos (by omega), List.cons.injEq, ofNat_eq_iff (by omega)]
    exact ⟨value.symm, rfl⟩
  | two lead next value =>
    rw [continuation?_eq_some_iff] at next
    rw [if_neg (by omega), if_pos (by omega), List.cons.injEq, List.cons.injEq,
      ofNat_eq_iff (by omega), ofNat_eq_iff (by omega)]
    exact ⟨by omega, by omega, rfl⟩
  | three lead next last value shortest =>
    rw [continuation?_eq_some_iff] at next last
    rw [if_neg (by omega), if_neg (by omega), if_pos (by omega), List.cons.injEq, List.cons.injEq,
      List.cons.injEq, ofNat_eq_iff (by omega), ofNat_eq_iff (by omega), ofNat_eq_iff (by omega)]
    exact ⟨by omega, by omega, by omega, rfl⟩
  | four lead next third last value shortest =>
    rw [continuation?_eq_some_iff] at next third last
    rw [if_neg (by omega), if_neg (by omega), if_neg (by omega), List.cons.injEq, List.cons.injEq,
      List.cons.injEq, List.cons.injEq, ofNat_eq_iff (by omega), ofNat_eq_iff (by omega),
      ofNat_eq_iff (by omega), ofNat_eq_iff (by omega)]
    exact ⟨by omega, by omega, by omega, by omega, rfl⟩

theorem inRange_iff (low high a : UInt8) :
    (low ≤ a && a ≤ high) = true ↔ low.toNat ≤ a.toNat ∧ a.toNat ≤ high.toNat := by
  rw [Bool.and_eq_true, decide_eq_true_iff, decide_eq_true_iff, UInt8.le_iff_toNat_le,
    UInt8.le_iff_toNat_le]

theorem CharBytes.decodeChars?_append {c : Char} {bytes : List UInt8} (h : CharBytes c bytes)
    (rest : List UInt8) : decodeChars? (bytes ++ rest) = (decodeChars? rest).map (c :: ·) := by
  have hmax := toNat_le c
  have hone (a : UInt8) : a ≤ 0x7F ↔ a.toNat ≤ 0x7F := UInt8.le_iff_toNat_le
  have htwo (a : UInt8) : (0xC2 ≤ a && a ≤ 0xDF) = true ↔ 0xC2 ≤ a.toNat ∧ a.toNat ≤ 0xDF :=
    inRange_iff 0xC2 0xDF a
  have hthree (a : UInt8) : (0xE0 ≤ a && a ≤ 0xEF) = true ↔ 0xE0 ≤ a.toNat ∧ a.toNat ≤ 0xEF :=
    inRange_iff 0xE0 0xEF a
  have hfour (a : UInt8) : (0xF0 ≤ a && a ≤ 0xF4) = true ↔ 0xF0 ≤ a.toNat ∧ a.toNat ≤ 0xF4 :=
    inRange_iff 0xF0 0xF4 a
  cases h with
  | @one a lead value =>
    have hread : scalar? 0 0x7F a.toNat = some c := scalar?_eq_some_iff.mpr ⟨value, by omega⟩
    rw [List.singleton_append, decodeChars?.eq_def]
    simp only [hone, if_pos lead, hread]
    cases decodeChars? rest <;> rfl
  | @two a b x lead next value =>
    have hnext := continuation?_eq_some_iff.mp next
    have hread : scalar? 0x80 0x7FF ((a.toNat - 0xC0) * 64 + x) = some c :=
      scalar?_eq_some_iff.mpr ⟨value, by omega⟩
    have hone' : ¬ a.toNat ≤ 0x7F := by omega
    rw [List.cons_append, List.singleton_append, decodeChars?.eq_def]
    simp only [hone, if_neg hone', htwo, if_pos lead, next, hread, Option.bind_eq_bind,
      Option.bind_some]
    cases decodeChars? rest <;> rfl
  | @three a b d x y lead next last value shortest =>
    have hnext := continuation?_eq_some_iff.mp next
    have hlast := continuation?_eq_some_iff.mp last
    have hread : scalar? 0x800 0xFFFF (((a.toNat - 0xE0) * 64 + x) * 64 + y) = some c :=
      scalar?_eq_some_iff.mpr ⟨value, by omega⟩
    have hone' : ¬ a.toNat ≤ 0x7F := by omega
    have htwo' : ¬ (0xC2 ≤ a.toNat ∧ a.toNat ≤ 0xDF) := by omega
    rw [List.cons_append, List.cons_append, List.singleton_append, decodeChars?.eq_def]
    simp only [hone, if_neg hone', htwo, if_neg htwo', hthree, if_pos lead, next, last, hread,
      Option.bind_eq_bind, Option.bind_some]
    cases decodeChars? rest <;> rfl
  | @four a b d e x y z lead next third last value shortest =>
    have hread : scalar? 0x10000 0x10FFFF
        ((((a.toNat - 0xF0) * 64 + x) * 64 + y) * 64 + z) = some c :=
      scalar?_eq_some_iff.mpr ⟨value, by omega⟩
    have hone' : ¬ a.toNat ≤ 0x7F := by omega
    have htwo' : ¬ (0xC2 ≤ a.toNat ∧ a.toNat ≤ 0xDF) := by omega
    have hthree' : ¬ (0xE0 ≤ a.toNat ∧ a.toNat ≤ 0xEF) := by omega
    rw [List.cons_append, List.cons_append, List.cons_append, List.singleton_append,
      decodeChars?.eq_def]
    simp only [hone, if_neg hone', htwo, if_neg htwo', hthree, if_neg hthree', hfour, if_pos lead,
      next, third, last, hread, Option.bind_eq_bind, Option.bind_some]
    cases decodeChars? rest <;> rfl

theorem CharBytes.append {c : Char} {bytes rest : List UInt8} {cs : List Char}
    (h : CharBytes c bytes) (hrest : rest = encodeChars cs) :
    bytes ++ rest = encodeChars (c :: cs) := by
  rw [hrest, h.eq, encodeChars_cons]

/-- Bytes are read as characters exactly when they are the bytes of those. -/
theorem decodeChars?_eq_some_iff {bytes : List UInt8} {cs : List Char} :
    decodeChars? bytes = some cs ↔ bytes = encodeChars cs := by
  constructor
  · intro h
    fun_induction decodeChars? bytes generalizing cs with
    | case1 =>
      cases h
      rfl
    | case2 a rest ha ih =>
      obtain ⟨c, hc, cs', hcs', hpure⟩ := by
        simpa only [Option.bind_eq_bind, Option.bind_eq_some_iff] using h
      cases hpure
      obtain ⟨value, _⟩ := scalar?_eq_some_iff.mp hc
      exact (CharBytes.one (UInt8.le_iff_toNat_le.mp ha) value).append (ih hcs')
    | case3 a hone htwo b rest ih =>
      obtain ⟨x, hx, c, hc, cs', hcs', hpure⟩ := by
        simpa only [Option.bind_eq_bind, Option.bind_eq_some_iff] using h
      cases hpure
      obtain ⟨value, _⟩ := scalar?_eq_some_iff.mp hc
      exact (CharBytes.two ((inRange_iff ..).mp htwo) hx value).append (ih hcs')
    | case5 a hone htwo hthree b d rest ih =>
      obtain ⟨x, hx, y, hy, c, hc, cs', hcs', hpure⟩ := by
        simpa only [Option.bind_eq_bind, Option.bind_eq_some_iff] using h
      cases hpure
      obtain ⟨value, hsize, _⟩ := scalar?_eq_some_iff.mp hc
      exact (CharBytes.three ((inRange_iff ..).mp hthree) hx hy value (value ▸ hsize)).append
        (ih hcs')
    | case7 a hone htwo hthree hfour b d e rest ih =>
      obtain ⟨x, hx, y, hy, z, hz, c, hc, cs', hcs', hpure⟩ := by
        simpa only [Option.bind_eq_bind, Option.bind_eq_some_iff] using h
      cases hpure
      obtain ⟨value, hsize, _⟩ := scalar?_eq_some_iff.mp hc
      exact (CharBytes.four ((inRange_iff ..).mp hfour) hx hy hz value (value ▸ hsize)).append
        (ih hcs')
    | case4 | case6 | case8 | case9 => cases h
  · rintro rfl
    induction cs with
    | nil => rfl
    | cons c cs ih =>
      rw [encodeChars_cons, (charBytes_utf8EncodeChar c).decodeChars?_append, ih]
      rfl

theorem decode?_eq_some_iff {bytes : List UInt8} {s : String} :
    decode? bytes = some s ↔ bytes = encode s := by
  rw [decode?, Option.map_eq_some_iff, encode_eq]
  constructor
  · rintro ⟨cs, hcs, rfl⟩
    rw [String.toList_ofList]
    exact decodeChars?_eq_some_iff.mp hcs
  · intro h
    exact ⟨s.toList, decodeChars?_eq_some_iff.mpr h, String.ofList_toList⟩

end BoundSql.Text
