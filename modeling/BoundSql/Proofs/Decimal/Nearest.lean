import Mathlib.Algebra.Order.Field.Basic
import Mathlib.Algebra.Order.Field.Power
import Mathlib.Tactic.FieldSimp
import Mathlib.Tactic.Linarith
import Mathlib.Tactic.NormNum
import Mathlib.Tactic.Positivity
import Mathlib.Tactic.Ring
import BoundSql.Decimal.Binary64

/-!
A decimal number read as a binary one: the reader gives the binary number nearest to it, from the
middle of two the one with an even significand, and gives none exactly when there is none in
range.  The numbers that round to one binary number form an interval, and the intervals of two
binary numbers do not meet.
-/

namespace BoundSql

section Powers

/-- The powers `2 ^ 93` and `10 ^ 28`, and `2 ^ 103` and `10 ^ 31`, are close enough to compare the
powers of two and of ten that matter here. -/
theorem two_zpow_lt_ten_zpow {j p : Int} (h : 28 * j < 93 * p) (h' : 31 * j < 103 * p) :
    (2 : ℚ) ^ j < 10 ^ p := by
  have htwo : (0 : ℚ) ≤ 2 ^ j := by positivity
  rcases le_or_gt 0 p with hp | hp
  · refine lt_of_pow_lt_pow_left₀ 28 (by positivity) ?_
    calc ((2 : ℚ) ^ j) ^ 28 = 2 ^ (28 * j) := by rw [mul_comm, zpow_mul]; rfl
      _ < 2 ^ (93 * p) := zpow_lt_zpow_right₀ one_lt_two h
      _ = (2 ^ 93) ^ p := zpow_mul 2 93 p
      _ ≤ (10 ^ 28) ^ p := zpow_le_zpow_left₀ hp (by positivity) (by norm_num)
      _ = (10 ^ p) ^ 28 := by rw [← zpow_natCast, ← zpow_natCast, zpow_comm]
  · refine lt_of_pow_lt_pow_left₀ 31 (by positivity) ?_
    calc ((2 : ℚ) ^ j) ^ 31 = 2 ^ (31 * j) := by rw [mul_comm, zpow_mul]; rfl
      _ < 2 ^ (103 * p) := zpow_lt_zpow_right₀ one_lt_two h'
      _ = (2 ^ 103) ^ p := zpow_mul 2 103 p
      _ ≤ (10 ^ 31) ^ p := by
        obtain ⟨m, rfl⟩ : ∃ m : Nat, p = -m := ⟨(-p).toNat, by omega⟩
        rw [zpow_neg, zpow_neg, zpow_natCast, zpow_natCast]
        gcongr
        norm_num
      _ = (10 ^ p) ^ 31 := by rw [← zpow_natCast, ← zpow_natCast, zpow_comm]

theorem ten_zpow_lt_two_zpow {j p : Int} (h : 93 * p < 28 * j) (h' : 103 * p < 31 * j) :
    (10 : ℚ) ^ p < 2 ^ j := by
  have := two_zpow_lt_ten_zpow (j := -j) (p := -p) (by omega) (by omega)
  rwa [zpow_neg, zpow_neg, inv_lt_inv₀ (by positivity) (by positivity)] at this

end Powers

section Ratios

theorem powerRatio_pos {base : Nat} (h : 0 < base) (exponent : Int) :
    0 < (powerRatio base exponent).1 ∧ 0 < (powerRatio base exponent).2 := by
  unfold powerRatio
  split
  · exact ⟨one_pos, Nat.pow_pos h⟩
  · exact ⟨Nat.pow_pos h, one_pos⟩

theorem powerRatio_div (base : Nat) (exponent : Int) :
    ((powerRatio base exponent).1 : ℚ) / (powerRatio base exponent).2 = (base : ℚ) ^ exponent := by
  unfold powerRatio
  split
  next h =>
    obtain ⟨n, rfl⟩ : ∃ n : Nat, exponent = -n := ⟨(-exponent).toNat, by omega⟩
    simp
  next h =>
    obtain ⟨n, rfl⟩ := Int.eq_ofNat_of_zero_le (not_lt.mp h)
    simp

/-- The natural number `q` is nearest to `x`, and from a middle it is even. -/
structure IsNearest (q : Nat) (x : ℚ) : Prop where
  lower : (q : ℚ) - 1 / 2 ≤ x
  upper : x ≤ q + 1 / 2
  tie : x = q - 1 / 2 ∨ x = q + 1 / 2 → q % 2 = 0

theorem IsNearest.unique {p q : Nat} {x : ℚ} (hp : IsNearest p x) (hq : IsNearest q x) : p = q := by
  have key {p q : Nat} (hp : IsNearest p x) (hq : IsNearest q x) : p ≤ q := by
    by_contra! h
    have hle : p ≤ q + 1 := by
      have : (p : ℚ) ≤ ((q + 1 : Nat) : ℚ) := by
        push_cast
        linarith [hp.lower, hq.upper]
      exact_mod_cast this
    obtain rfl : p = q + 1 := by omega
    have hmid : x = q + 1 / 2 := by
      have := hp.lower
      push_cast at this
      linarith [hq.upper]
    have h₁ := hp.tie (.inl (by push_cast; linarith))
    have h₂ := hq.tie (.inr hmid)
    omega
  exact le_antisymm (key hp hq) (key hq hp)

theorem isNearest_roundDiv (n : Nat) {d : Nat} (hd : 0 < d) :
    IsNearest (roundDiv n d) ((n : ℚ) / d) := by
  have hpos : (0 : ℚ) < d := by exact_mod_cast hd
  obtain ⟨part, hpart⟩ : ∃ part : ℚ, part = (n % d : Nat) / d := ⟨_, rfl⟩
  have hn : (n : ℚ) / d = (n / d : Nat) + part := by
    rw [hpart, div_eq_iff hpos.ne', add_mul, div_mul_cancel₀ _ hpos.ne']
    exact_mod_cast (Nat.div_add_mod' n d).symm
  have hlo : 0 ≤ part := by rw [hpart]; positivity
  have hhi : part < 1 := by
    rw [hpart, div_lt_one hpos]
    exact_mod_cast Nat.mod_lt n hd
  have hlt : 2 * (n % d) < d ↔ part < 1 / 2 := by
    rw [hpart, div_lt_iff₀ hpos, ← Nat.cast_lt (α := ℚ)]
    push_cast
    constructor <;> intro h <;> linarith
  have heq : 2 * (n % d) = d ↔ part = 1 / 2 := by
    rw [hpart, div_eq_iff hpos.ne', ← Nat.cast_inj (R := ℚ)]
    push_cast
    constructor <;> intro h <;> linarith
  unfold roundDiv
  simp only [Bool.or_eq_true, decide_eq_true_eq, Bool.and_eq_true, beq_iff_eq, hlt, heq]
  split
  next h =>
    have hle : part ≤ 1 / 2 := by rcases h with h | h <;> linarith
    refine ⟨by linarith, by linarith, fun ht => ?_⟩
    rcases h with h | h
    · rcases ht with ht | ht <;> linarith
    · exact h.2
  next h =>
    simp only [not_or, not_lt, not_and] at h
    refine ⟨by push_cast; linarith, by push_cast; linarith, fun ht => ?_⟩
    push_cast at ht
    have := h.2 (by rcases ht with ht | ht <;> linarith)
    omega

end Ratios

namespace Binary64

/-- The numbers of the format, but for the greatest exponent. -/
structure Canonical (b : Binary64) : Prop where
  least : minExponent ≤ b.exponent
  significand_lt : b.significand < 2 ^ 53
  normal : b.exponent = minExponent ∨ 2 ^ 52 ≤ b.significand

def value (b : Binary64) : ℚ := b.significand * 2 ^ b.exponent

/-- The lower end of the numbers that round to `b`, in units of `b`.  The lower neighbour is nearer
where the exponent changes. -/
def lowEnd (b : Binary64) : ℚ :=
  if b.significand = 2 ^ 52 ∧ minExponent < b.exponent then b.significand - 1 / 4
  else b.significand - 1 / 2

/-- The number `x` lies between the middles of `b` and its neighbours, and on a middle only when
the significand is even. -/
structure Rounds (x : ℚ) (b : Binary64) : Prop where
  lower : b.lowEnd ≤ x / 2 ^ b.exponent
  upper : x / 2 ^ b.exponent ≤ b.significand + 1 / 2
  tie : x / 2 ^ b.exponent = b.lowEnd ∨ x / 2 ^ b.exponent = b.significand + 1 / 2 →
    b.significand % 2 = 0

/-- With the exponent `e`, the number `x` has 53 binary digits before the point, or fewer when the
exponent is the least one. -/
structure Scale (x : ℚ) (e : Int) : Prop where
  least : minExponent ≤ e
  lt : x / 2 ^ e < 2 ^ 53
  normal : e = minExponent ∨ 2 ^ 52 ≤ x / 2 ^ e

theorem div_zpow_succ (x : ℚ) (e : Int) : x / 2 ^ e = x / 2 ^ (e + 1) * 2 := by
  rw [zpow_add_one₀ two_ne_zero]
  field_simp

theorem div_zpow_le {x : ℚ} (hx : 0 ≤ x) {e e' : Int} (h : e ≤ e') : x / 2 ^ e' ≤ x / 2 ^ e := by
  gcongr
  exact one_le_two

theorem Scale.unique {x : ℚ} {e e' : Int} (hx : 0 ≤ x) (h : Scale x e) (h' : Scale x e') :
    e = e' := by
  have key {e e' : Int} (h : Scale x e) (h' : Scale x e') : e' ≤ e := by
    by_contra! hlt
    have hnormal := h'.normal.resolve_left (by have := h.least; omega)
    have hle := div_zpow_le hx (show e + 1 ≤ e' by omega)
    have hlt := h.lt
    rw [div_zpow_succ x e] at hlt
    linarith
  exact le_antisymm (key h' h) (key h h')

/-- The number with the significand `s` and the exponent `e`, where the significand may have been
rounded up to one digit more. -/
def carry (s : Nat) (e : Int) : Binary64 := if s = 2 ^ 53 then ⟨2 ^ 52, e + 1⟩ else ⟨s, e⟩

variable {x : ℚ} {e : Int} {s : Nat} {b : Binary64}

theorem Scale.significand_le (h : Scale x e) (hs : IsNearest s (x / 2 ^ e)) : s ≤ 2 ^ 53 := by
  have hlt : (s : ℚ) < ((2 ^ 53 + 1 : Nat) : ℚ) := by
    push_cast
    linarith [h.lt, hs.lower]
  have := Nat.cast_lt.mp hlt
  omega

theorem le_significand (hs : IsNearest s (x / 2 ^ e)) (h : 2 ^ 52 ≤ x / 2 ^ e) :
    2 ^ 52 ≤ s := by
  have hlt : ((2 ^ 52 : Nat) : ℚ) < ((s + 1 : Nat) : ℚ) := by
    push_cast
    linarith [hs.upper]
  have := Nat.cast_lt.mp hlt
  omega

theorem Scale.canonical_carry (h : Scale x e) (hs : IsNearest s (x / 2 ^ e)) :
    (carry s e).Canonical := by
  have hle := h.significand_le hs
  have hleast := h.least
  unfold carry
  split
  next => exact ⟨by show minExponent ≤ e + 1; omega, by norm_num, .inr le_rfl⟩
  next hne =>
    exact ⟨hleast, by show s < 2 ^ 53; omega, h.normal.imp_right fun hn => le_significand hs hn⟩

theorem Scale.rounds_carry (h : Scale x e) (hs : IsNearest s (x / 2 ^ e)) :
    Rounds x (carry s e) := by
  have hlt := h.lt
  unfold carry
  split
  next hs' =>
    -- rounded up to the next power of two, of which the lower neighbour is half a unit away
    subst hs'
    have hlo := hs.lower
    rw [div_zpow_succ x e] at hlt hlo
    have hlow : lowEnd ⟨2 ^ 52, e + 1⟩ = 2 ^ 52 - 1 / 4 := by
      have := h.least
      rw [lowEnd, if_pos ⟨rfl, by show minExponent < e + 1; omega⟩]
      norm_num
    push_cast at hlo
    refine ⟨?_, ?_, fun _ => by norm_num⟩
    · rw [hlow]
      linarith
    · push_cast
      linarith
  next hne =>
    have hlow : lowEnd ⟨s, e⟩ ≤ x / 2 ^ e ∧
        (x / 2 ^ e = lowEnd ⟨s, e⟩ → x / 2 ^ e = s - 1 / 2) := by
      simp only [lowEnd]
      split
      next hcond =>
        have := h.normal.resolve_left (by omega)
        rw [hcond.1]
        push_cast
        exact ⟨by linarith, fun he => by linarith⟩
      next => exact ⟨hs.lower, id⟩
    exact ⟨hlow.1, hs.upper, fun ht => hs.tie (ht.imp_left hlow.2)⟩

theorem Rounds.sub_half_le (hr : Rounds x b) :
    (b.significand : ℚ) - 1 / 2 ≤ x / 2 ^ b.exponent := by
  have := hr.lower
  rw [lowEnd] at this
  split at this <;> linarith

theorem Rounds.isNearest (hr : Rounds x b) : IsNearest b.significand (x / 2 ^ b.exponent) where
  lower := hr.sub_half_le
  upper := hr.upper
  tie := fun h => hr.tie <| h.imp_left fun hlow => by
    have := hr.lower
    rw [lowEnd] at this ⊢
    split at this
    · linarith
    next hcond => rw [if_neg hcond, hlow]

theorem Rounds.lt (hb : b.Canonical) (hr : Rounds x b) : x / 2 ^ b.exponent < 2 ^ 53 := by
  have hle : (b.significand : ℚ) + 1 ≤ 2 ^ 53 := by exact_mod_cast hb.significand_lt
  linarith [hr.upper]

/-- A number below the powers of two of its binary number rounds up to the least of them. -/
theorem Rounds.significand_eq (hb : b.Canonical) (hr : Rounds x b) (he : minExponent < b.exponent)
    (hlt : x / 2 ^ b.exponent < 2 ^ 52) : b.significand = 2 ^ 52 := by
  have hle := hb.normal.resolve_left he.ne'
  have hlt' : (b.significand : ℚ) < ((2 ^ 52 + 1 : Nat) : ℚ) := by
    push_cast
    linarith [hr.sub_half_le]
  have := Nat.cast_lt.mp hlt'
  omega

/-- The binary number to which a number rounds is the one that rounding its significand gives. -/
theorem Scale.eq_carry (hx : 0 ≤ x) (h : Scale x e) (hs : IsNearest s (x / 2 ^ e))
    (hb : b.Canonical) (hr : Rounds x b) : b = carry s e := by
  by_cases hnormal : b.exponent = minExponent ∨ 2 ^ 52 ≤ x / 2 ^ b.exponent
  · obtain rfl := h.unique hx ⟨hb.least, hr.lt hb, hnormal⟩
    obtain rfl := hs.unique hr.isNearest
    rw [carry, if_neg hb.significand_lt.ne]
  · -- just below a power of two, where the digits of the next lower exponent are all ones
    simp only [not_or, not_le] at hnormal
    have hleast := hb.least
    have hmin : minExponent < b.exponent := by omega
    have hsig := hr.significand_eq hb hmin hnormal.2
    obtain ⟨f, hf⟩ : ∃ f, b.exponent = f + 1 := ⟨b.exponent - 1, by omega⟩
    have hlow := hr.lower
    have hlt := hnormal.2
    rw [lowEnd, if_pos ⟨hsig, hmin⟩, hsig] at hlow
    rw [hf] at hlow hlt
    push_cast at hlow
    have htwice := div_zpow_succ x f
    obtain rfl : e = f := h.unique hx ⟨by omega, by linarith, .inr (by linarith)⟩
    obtain rfl : s = 2 ^ 53 := hs.unique
      ⟨by push_cast; linarith, by push_cast; linarith, fun _ => by norm_num⟩
    rw [carry, if_pos rfl, ← hf, ← hsig]

/-- The binary orders of two numbers bound their ratio within a factor of four. -/
theorem ratio_bounds {n d : Nat} (hn : 0 < n) (hd : 0 < d) {q : Int}
    (hq : q = (n.log2 : Int) - d.log2 - 53) :
    2 ^ 52 < (n : ℚ) / d / 2 ^ q ∧ (n : ℚ) / d / 2 ^ q < 2 ^ 54 := by
  have hnlo : (2 : ℚ) ^ (n.log2 : Int) ≤ n := by exact_mod_cast Nat.log2_self_le hn.ne'
  have hnhi : (n : ℚ) < 2 ^ ((n.log2 : Int) + 1) := by exact_mod_cast Nat.lt_log2_self
  have hdlo : (2 : ℚ) ^ (d.log2 : Int) ≤ d := by exact_mod_cast Nat.log2_self_le hd.ne'
  have hdhi : (d : ℚ) < 2 ^ ((d.log2 : Int) + 1) := by exact_mod_cast Nat.lt_log2_self
  have hd' : (0 : ℚ) < d := by exact_mod_cast hd
  have hpow : (0 : ℚ) < 2 ^ q := by positivity
  constructor
  · rw [lt_div_iff₀ hpow, lt_div_iff₀ hd']
    calc (2 : ℚ) ^ 52 * 2 ^ q * d < 2 ^ 52 * 2 ^ q * 2 ^ ((d.log2 : Int) + 1) := by gcongr
      _ = 2 ^ (n.log2 : Int) := by
        rw [← zpow_natCast, ← zpow_add₀ two_ne_zero, ← zpow_add₀ two_ne_zero]
        congr 1
        push_cast
        omega
      _ ≤ n := hnlo
  · rw [div_lt_iff₀ hpow, div_lt_iff₀ hd']
    calc (n : ℚ) < 2 ^ ((n.log2 : Int) + 1) := hnhi
      _ = 2 ^ 54 * 2 ^ q * 2 ^ (d.log2 : Int) := by
        rw [← zpow_natCast, ← zpow_add₀ two_ne_zero, ← zpow_add₀ two_ne_zero]
        congr 1
        push_cast
        omega
      _ ≤ 2 ^ 54 * 2 ^ q * d := by gcongr

/-- The exponent that the reader takes: one guessed from the binary orders, or the next. -/
theorem scale_guess {n d : Nat} (hn : 0 < n) (hd : 0 < d) {g : Int}
    (hg : g = max minExponent ((n.log2 : Int) - d.log2 - 53)) :
    Scale ((n : ℚ) / d) (if (n : ℚ) / d / 2 ^ g < 2 ^ 53 then g else g + 1) := by
  obtain ⟨hlo, hhi⟩ := ratio_bounds hn hd rfl
  generalize hq : (n.log2 : Int) - d.log2 - 53 = q at hlo hhi hg
  have hx : 0 ≤ (n : ℚ) / d := by positivity
  rcases lt_or_ge q minExponent with hlt | hge
  · obtain rfl : g = minExponent := by omega
    have hle := div_zpow_le hx (show q + 1 ≤ minExponent by omega)
    rw [div_zpow_succ _ q] at hhi
    have hsmall : (n : ℚ) / d / 2 ^ minExponent < 2 ^ 53 := by linarith
    rw [if_pos hsmall]
    exact ⟨le_rfl, hsmall, .inl rfl⟩
  · obtain rfl : g = q := by omega
    split
    next h => exact ⟨hge, h, .inr hlo.le⟩
    next h =>
      rw [not_lt, div_zpow_succ _ g] at h
      rw [div_zpow_succ _ g] at hhi
      exact ⟨by omega, by linarith, .inr (by linarith)⟩

/-- A number that is not negative has an exponent, and rounding to it gives the binary number that
the reader gives, unless that is out of range. -/
theorem exists_nearest?_eq (n : Nat) {d : Nat} (hd : 0 < d) : ∃ e s, Scale ((n : ℚ) / d) e ∧
    IsNearest s ((n : ℚ) / d / 2 ^ e) ∧ nearest? n d =
      if (carry s e).exponent ≤ maxExponent then some (carry s e) else none := by
  rcases n.eq_zero_or_pos with rfl | hn
  · refine ⟨minExponent, 0, ⟨le_rfl, by simp, .inl rfl⟩, ⟨by simp, by simp, fun _ => rfl⟩, ?_⟩
    rfl
  -- the ratio scaled by a power of two
  have hscaled (q : Int) :
      ((n * (powerRatio 2 q).2 : Nat) : ℚ) / ((d * (powerRatio 2 q).1 : Nat) : ℚ) =
        (n : ℚ) / d / 2 ^ q := by
    have := powerRatio_div 2 q
    push_cast at this ⊢
    rw [← this]
    field_simp
  have hdown (q : Int) : 0 < d * (powerRatio 2 q).1 := Nat.mul_pos hd (powerRatio_pos two_pos q).1
  have hlt (q : Int) : n * (powerRatio 2 q).2 / (d * (powerRatio 2 q).1) < 2 ^ 53 ↔
      (n : ℚ) / d / 2 ^ q < 2 ^ 53 := by
    rw [Nat.div_lt_iff_lt_mul (hdown q), ← hscaled, div_lt_iff₀ (by exact_mod_cast hdown q)]
    exact_mod_cast Iff.rfl
  obtain ⟨g, hg⟩ : ∃ g, g = max minExponent ((n.log2 : Int) - d.log2 - 53) := ⟨_, rfl⟩
  obtain ⟨e, he⟩ : ∃ e, e = if n * (powerRatio 2 g).2 / (d * (powerRatio 2 g).1) < 2 ^ 53 then g
    else g + 1 := ⟨_, rfl⟩
  refine ⟨e, roundDiv (n * (powerRatio 2 e).2) (d * (powerRatio 2 e).1), ?_, ?_, ?_⟩
  · rw [he, if_congr (hlt g) rfl rfl]
    exact scale_guess hn hd hg
  · rw [← hscaled]
    exact isNearest_roundDiv _ (hdown e)
  · rw [nearest?, if_neg hn.ne', he, hg]
    rfl

/-- The reader gives the binary number in range to which a ratio rounds, whenever there is one. -/
theorem nearest?_eq_some_iff {n d : Nat} (hd : 0 < d) : nearest? n d = some b ↔
    b.Canonical ∧ b.exponent ≤ maxExponent ∧ Rounds ((n : ℚ) / d) b := by
  obtain ⟨e, s, hscale, hs, heq⟩ := exists_nearest?_eq n hd
  rw [heq, Option.ite_none_right_eq_some, Option.some.injEq]
  constructor
  · rintro ⟨hmax, rfl⟩
    exact ⟨hscale.canonical_carry hs, hmax, hscale.rounds_carry hs⟩
  · rintro ⟨hb, hmax, hr⟩
    obtain rfl := hscale.eq_carry (by positivity) hs hb hr
    exact ⟨hmax, rfl⟩

/-- A number in units of another: a whole number of them, or less than any number with that
exponent by half a unit at least. -/
theorem Canonical.exists_units {c : Binary64} (hc : c.Canonical) (e : Int) :
    ∃ y : ℚ, c.value = y * 2 ^ e ∧
      ((∃ k : Nat, y = k) ∨ minExponent < e ∧ y ≤ 2 ^ 52 - 1 / 2) := by
  have hunit : (0 : ℚ) < 2 ^ e := by positivity
  rcases le_or_gt e c.exponent with hle | hgt
  · obtain ⟨m, hm⟩ := Int.eq_ofNat_of_zero_le (sub_nonneg.mpr hle)
    refine ⟨_, ?_, .inl ⟨c.significand * 2 ^ m, rfl⟩⟩
    rw [value, show c.exponent = m + e by omega, zpow_add₀ two_ne_zero, zpow_natCast]
    push_cast
    ring
  · refine ⟨c.value / 2 ^ e, by field_simp, .inr ⟨hc.least.trans_lt hgt, ?_⟩⟩
    have hle : (c.significand : ℚ) ≤ 2 ^ 53 - 1 := by
      have : (c.significand : ℚ) + 1 ≤ 2 ^ 53 := by exact_mod_cast hc.significand_lt
      linarith
    have hpow : (2 : ℚ) ^ c.exponent ≤ 2 ^ e / 2 := by
      rw [div_eq_mul_inv, ← zpow_sub_one₀ two_ne_zero]
      exact zpow_le_zpow_right₀ one_le_two (by omega)
    rw [div_le_iff₀ hunit]
    calc c.value ≤ (2 ^ 53 - 1) * (2 ^ e / 2) := by
          rw [value]
          gcongr
      _ = (2 ^ 52 - 1 / 2) * 2 ^ e := by ring

/-- No binary number is nearer to a number than the one it rounds to. -/
theorem Rounds.nearest (hb : b.Canonical) (hr : Rounds x b) {c : Binary64} (hc : c.Canonical) :
    |x - b.value| ≤ |x - c.value| := by
  have hunit : (0 : ℚ) < 2 ^ b.exponent := by positivity
  obtain ⟨u, rfl⟩ : ∃ u, x = u * 2 ^ b.exponent := ⟨x / 2 ^ b.exponent, by field_simp⟩
  obtain ⟨y, hy, hcases⟩ := hc.exists_units b.exponent
  have hlow := hr.lower
  have hhalf := hr.sub_half_le
  have hup := hr.upper
  rw [mul_div_cancel_right₀ _ hunit.ne'] at hlow hhalf hup
  -- both distances in units of `b`
  rw [hy, value, ← sub_mul, ← sub_mul, abs_mul, abs_mul]
  refine mul_le_mul_of_nonneg_right ?_ (abs_nonneg _)
  rcases hcases with ⟨k, rfl⟩ | ⟨hmin, hle⟩
  · rcases lt_trichotomy k b.significand with h | rfl | h
    · have : (k : ℚ) + 1 ≤ b.significand := by exact_mod_cast h
      rw [abs_of_nonneg (show 0 ≤ u - k by linarith), abs_le]
      constructor <;> linarith
    · exact le_rfl
    · have : (b.significand : ℚ) + 1 ≤ k := by exact_mod_cast h
      rw [abs_of_nonpos (show u - k ≤ 0 by linarith), abs_le]
      constructor <;> linarith
  · have hsig := hb.normal.resolve_left hmin.ne'
    suffices y ≤ u ∧ u - b.significand ≤ u - y ∧ b.significand - u ≤ u - y by
      rw [abs_of_nonneg (sub_nonneg.mpr this.1), abs_le]
      exact ⟨by linarith, this.2.1⟩
    rw [lowEnd] at hlow
    split at hlow
    next hcond =>
      rw [hcond.1] at hlow ⊢
      push_cast at hlow ⊢
      refine ⟨?_, ?_, ?_⟩ <;> linarith
    next hcond =>
      have : (2 ^ 52 + 1 : ℚ) ≤ b.significand := by
        have : b.significand ≠ 2 ^ 52 := fun h => hcond ⟨h, hmin⟩
        exact_mod_cast (show 2 ^ 52 + 1 ≤ b.significand by omega)
      refine ⟨?_, ?_, ?_⟩ <;> linarith

end Binary64

namespace Decimal

open Binary64

/-- The number without its sign. -/
def magnitude (d : Decimal) : ℚ := d.coefficient * 10 ^ d.exponent

/-- A decimal number lies between two powers of ten next to each other, which the number of its
digits tells. -/
theorem magnitude_bounds {d : Decimal} (h : 0 < d.coefficient) {order : Int}
    (horder : order = d.exponent + ((Nat.toDigits 10 d.coefficient).length : Int)) :
    10 ^ (order - 1) ≤ d.magnitude ∧ d.magnitude < 10 ^ order := by
  have hpow : (0 : ℚ) < 10 ^ d.exponent := by positivity
  obtain ⟨places, hplaces⟩ : ∃ places, (Nat.toDigits 10 d.coefficient).length = places + 1 :=
    Nat.exists_eq_succ_of_ne_zero Nat.length_toDigits_pos.ne'
  have hlt : d.coefficient < 10 ^ (places + 1) := by
    rw [← Nat.length_toDigits_le_iff (by decide) (Nat.succ_pos _), hplaces]
  have hle : 10 ^ places ≤ d.coefficient := by
    rcases places.eq_zero_or_pos with rfl | hpos
    · rwa [pow_zero]
    · by_contra! hlt
      have := (Nat.length_toDigits_le_iff (by decide) hpos).mpr hlt
      omega
  rw [hplaces] at horder
  constructor
  · calc (10 : ℚ) ^ (order - 1) = (10 ^ places : Nat) * 10 ^ d.exponent := by
          rw [show order - 1 = places + d.exponent by push_cast at horder; omega,
            zpow_add₀ (by norm_num), zpow_natCast]
          push_cast
          rfl
      _ ≤ d.magnitude := by
        rw [magnitude]
        gcongr
  · calc d.magnitude < (10 ^ (places + 1) : Nat) * 10 ^ d.exponent := by
          rw [magnitude]
          gcongr
      _ = 10 ^ order := by
        rw [horder, zpow_add₀ (by norm_num), zpow_natCast]
        push_cast
        ring

theorem ratio_eq_magnitude (d : Decimal) :
    ((d.coefficient * (powerRatio 10 d.exponent).1 : Nat) : ℚ) / (powerRatio 10 d.exponent).2 =
      d.magnitude := by
  have := powerRatio_div 10 d.exponent
  push_cast at this ⊢
  rw [magnitude, ← this, mul_div_assoc]

/-- Every number in range is below `10 ^ 309`. -/
theorem magnitude_lt {d : Decimal} {b : Binary64} (hb : b.Canonical)
    (hmax : b.exponent ≤ maxExponent) (hr : Rounds d.magnitude b) :
    d.magnitude < 10 ^ (309 : Int) := by
  have hlt := hr.lt hb
  rw [div_lt_iff₀ (by positivity)] at hlt
  calc d.magnitude < 2 ^ 53 * 2 ^ b.exponent := hlt
    _ ≤ 2 ^ 53 * 2 ^ maxExponent := by
      gcongr
      exact one_le_two
    _ = 2 ^ (1024 : Int) := by
      rw [← zpow_natCast, ← zpow_add₀ two_ne_zero]
      rfl
    _ ≤ 10 ^ (309 : Int) := (two_zpow_lt_ten_zpow (by decide) (by decide)).le

theorem rounds_zero {x : ℚ} (hx : 0 ≤ x) (h : x ≤ 10 ^ (-331 : Int)) : Rounds x Binary64.zero := by
  have hunit : (0 : ℚ) < 2 ^ minExponent := by positivity
  have hdiv : 0 ≤ x / 2 ^ minExponent := by positivity
  have hle : x / 2 ^ minExponent ≤ 1 / 2 := by
    rw [div_le_iff₀ hunit]
    calc x ≤ 10 ^ (-331 : Int) := h
      _ ≤ 2 ^ (-1075 : Int) := (ten_zpow_lt_two_zpow (by decide) (by decide)).le
      _ = 1 / 2 * 2 ^ minExponent := by
        rw [mul_comm, mul_one_div, div_eq_mul_inv, ← zpow_sub_one₀ two_ne_zero]
        rfl
  have hlow : Binary64.zero.lowEnd = -1 / 2 := by norm_num [lowEnd, Binary64.zero]
  refine ⟨?_, ?_, fun _ => rfl⟩
  · rw [hlow]
    exact le_trans (by norm_num) hdiv
  · simpa [Binary64.zero] using hle

/-- The numbers that are settled by the number of their digits get the same result as without. -/
theorem nearest?_eq (d : Decimal) :
    d.nearest? = Binary64.nearest? (d.coefficient * (powerRatio 10 d.exponent).1)
      (powerRatio 10 d.exponent).2 := by
  have hdown : 0 < (powerRatio 10 d.exponent).2 := (powerRatio_pos (by decide) _).2
  unfold nearest?
  extract_lets order
  split
  next h => rw [h, Nat.zero_mul]; rfl
  next h =>
    obtain ⟨hlo, hhi⟩ := magnitude_bounds (Nat.pos_of_ne_zero h) (show order = _ from rfl)
    split
    next horder =>
      symm
      rw [Option.eq_none_iff_forall_ne_some]
      intro b hb
      obtain ⟨hb, hmax, hr⟩ := (nearest?_eq_some_iff hdown).mp hb
      rw [ratio_eq_magnitude] at hr
      have hle : (10 : ℚ) ^ (309 : Int) ≤ 10 ^ (order - 1) :=
        zpow_le_zpow_right₀ (by norm_num) (by omega)
      exact absurd (magnitude_lt hb hmax hr) (not_lt.mpr (hle.trans hlo))
    next =>
      split
      next horder =>
        symm
        rw [nearest?_eq_some_iff hdown, ratio_eq_magnitude]
        have hle : (10 : ℚ) ^ order ≤ 10 ^ (-331 : Int) :=
          zpow_le_zpow_right₀ (by norm_num) (by omega)
        refine ⟨⟨le_rfl, by decide, .inl rfl⟩, by decide, rounds_zero ?_ (hhi.le.trans hle)⟩
        rw [magnitude]
        positivity
      next => rfl

/-- The reader gives the binary number in range to which a decimal number rounds, whenever there is
one. -/
theorem nearest?_eq_some_iff {d : Decimal} {b : Binary64} : d.nearest? = some b ↔
    b.Canonical ∧ b.exponent ≤ maxExponent ∧ Rounds d.magnitude b := by
  rw [nearest?_eq, Binary64.nearest?_eq_some_iff (powerRatio_pos (by decide) _).2,
    ratio_eq_magnitude]

end Decimal

end BoundSql
