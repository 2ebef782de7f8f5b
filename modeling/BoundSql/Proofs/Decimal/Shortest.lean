import BoundSql.Decimal.Shortest
import BoundSql.Proofs.Decimal.Nearest

/-!
The shortest decimal text of a binary number: it reads back as that number, no number on a coarser
decimal grid does, and on its own grid no other number that does is nearer.
-/

namespace BoundSql.Binary64

variable {x y z : ℚ} {b : Binary64}

theorem Rounds.convex (hx : Rounds x b) (hz : Rounds z b) (hxy : x ≤ y) (hyz : y ≤ z) :
    Rounds y b := by
  have hunit : (0 : ℚ) < 2 ^ b.exponent := by positivity
  have hxy' : x / 2 ^ b.exponent ≤ y / 2 ^ b.exponent := by gcongr
  have hyz' : y / 2 ^ b.exponent ≤ z / 2 ^ b.exponent := by gcongr
  refine ⟨hx.lower.trans hxy', hyz'.trans hz.upper, fun ht => ?_⟩
  rcases ht with ht | ht
  · exact hx.tie (.inl (le_antisymm (hxy'.trans ht.le) hx.lower))
  · exact hz.tie (.inr (le_antisymm hz.upper (ht.ge.trans hyz')))

theorem lowEnd_lt (b : Binary64) : b.lowEnd < b.significand := by
  rw [lowEnd]
  split <;> linarith

theorem rounds_value (b : Binary64) : Rounds b.value b := by
  have hunit : (0 : ℚ) < 2 ^ b.exponent := by positivity
  have hlow := b.lowEnd_lt
  have hdiv : b.value / 2 ^ b.exponent = b.significand := by
    rw [value, mul_div_cancel_right₀ _ hunit.ne']
  refine ⟨?_, ?_, fun h => ?_⟩ <;> rw [hdiv] at *
  · exact hlow.le
  · linarith
  · rcases h with h | h <;> linarith

theorem quarters_low (h : 0 < b.significand) : (b.quarters.1 : ℚ) = 4 * b.lowEnd := by
  have hlow : b.quarters.1 = if b.significand = 2 ^ 52 ∧ minExponent < b.exponent then
      4 * b.significand - 1 else 4 * b.significand - 2 := by
    simp only [quarters, Nat.pow_eq, Bool.and_eq_true, decide_eq_true_eq]
  rw [hlow, lowEnd]
  split
  · rw [Nat.cast_sub (by omega)]
    push_cast
    ring
  · rw [Nat.cast_sub (by omega)]
    push_cast
    ring

/-- The numbers that round to `b` are those between the middles, with the middles when the
significand is even. -/
theorem rounds_iff : Rounds x b ↔
    if b.significand % 2 = 0 then
      b.lowEnd ≤ x / 2 ^ b.exponent ∧ x / 2 ^ b.exponent ≤ b.significand + 1 / 2
    else b.lowEnd < x / 2 ^ b.exponent ∧ x / 2 ^ b.exponent < b.significand + 1 / 2 := by
  split
  next heven => exact ⟨fun h => ⟨h.lower, h.upper⟩, fun h => ⟨h.1, h.2, fun _ => heven⟩⟩
  next hodd =>
    constructor
    · intro h
      exact ⟨h.lower.lt_of_ne fun he => hodd (h.tie (.inl he.symm)),
        h.upper.lt_of_ne fun he => hodd (h.tie (.inr he))⟩
    · rintro ⟨hlo, hhi⟩
      refine ⟨hlo.le, hhi.le, fun ht => ?_⟩
      rcases ht with ht | ht
      · exact absurd ht hlo.ne'
      · exact absurd ht hhi.ne

/-- A number of quarters lies between the bounds, or on one of them, when the number that it stands
for rounds to `b`. -/
theorem contains_iff (h : 0 < b.significand) {n d : Nat} (hd : 0 < d) :
    b.contains n d = true ↔ Rounds ((n : ℚ) / d * 2 ^ (b.exponent - 2)) b := by
  have hunit : (0 : ℚ) < 2 ^ b.exponent := by positivity
  have hd' : (0 : ℚ) < d := by exact_mod_cast hd
  obtain ⟨u, hu⟩ : ∃ u : ℚ, u = (n : ℚ) / d / 4 := ⟨_, rfl⟩
  have hdiv : (n : ℚ) / d * 2 ^ (b.exponent - 2) / 2 ^ b.exponent = u := by
    rw [hu, zpow_sub₀ two_ne_zero]
    field_simp
    norm_num
  have hn : (n : ℚ) = 4 * u * d := by
    rw [hu]
    field_simp
  have hcompare {a : Nat} {r : ℚ} (ha : (a : ℚ) = 4 * r) :
      ((a * d ≤ n ↔ r ≤ u) ∧ (a * d < n ↔ r < u)) ∧ (n ≤ a * d ↔ u ≤ r) ∧ (n < a * d ↔ u < r) := by
    simp only [← Nat.cast_le (α := ℚ), ← Nat.cast_lt (α := ℚ), Nat.cast_mul, ha, hn,
      mul_le_mul_iff_left₀ hd', mul_lt_mul_iff_left₀ hd', mul_le_mul_iff_right₀ four_pos,
      mul_lt_mul_iff_right₀ four_pos, and_self]
  obtain ⟨hle, hlt⟩ := (hcompare (quarters_low h)).1
  obtain ⟨hge, hgt⟩ := (hcompare (a := 4 * b.significand + 2) (r := b.significand + 1 / 2)
    (by push_cast; ring)).2
  rw [rounds_iff, hdiv]
  show (if b.significand % 2 = 0 then
      decide (b.quarters.1 * d ≤ n) && decide (n ≤ (4 * b.significand + 2) * d)
    else decide (b.quarters.1 * d < n) && decide (n < (4 * b.significand + 2) * d)) = true ↔ _
  split
  · rw [Bool.and_eq_true, decide_eq_true_eq, decide_eq_true_eq, hle, hge]
  · rw [Bool.and_eq_true, decide_eq_true_eq, decide_eq_true_eq, hlt, hgt]

/-- The multiple `c` of `10 ^ p` rounds to `b`, and no other that does is nearer. -/
structure IsHit (b : Binary64) (p : Int) (c : Nat) : Prop where
  pos : 0 < c
  rounds : Rounds (c * 10 ^ p) b
  nearest : ∀ c' : Nat, 0 < c' → Rounds (c' * 10 ^ p) b →
    |(c : ℚ) * 10 ^ p - b.value| ≤ |(c' : ℚ) * 10 ^ p - b.value|

section Grid

variable (b) (p : Int)

/-- The step of the grid and the unit of the quarters of `b`, on a common denominator. -/
def gridStep : Nat := (powerRatio 10 p).1 * (powerRatio 2 (b.exponent - 2)).2

def gridUnit : Nat := (powerRatio 2 (b.exponent - 2)).1 * (powerRatio 10 p).2

/-- The multiple of the grid next below `b`. -/
def gridBelow : Nat := 4 * b.significand * b.gridUnit p / b.gridStep p

/-- Whether a multiple of the grid is positive and rounds to `b`. -/
def fits (c : Nat) : Bool := c ≠ 0 && b.contains (c * b.gridStep p) (b.gridUnit p)

theorem onGrid?_eq : b.onGrid? p =
    if b.fits p (b.gridBelow p) && (!b.fits p (b.gridBelow p + 1) ||
        2 * (4 * b.significand * b.gridUnit p) <
          (b.gridBelow p + (b.gridBelow p + 1)) * b.gridStep p) then some (b.gridBelow p)
    else if b.fits p (b.gridBelow p + 1) then some (b.gridBelow p + 1)
    else none :=
  rfl

theorem gridStep_pos : 0 < b.gridStep p :=
  Nat.mul_pos (powerRatio_pos (by decide) _).1 (powerRatio_pos (by decide) _).2

theorem gridUnit_pos : 0 < b.gridUnit p :=
  Nat.mul_pos (powerRatio_pos (by decide) _).1 (powerRatio_pos (by decide) _).2

theorem gridStep_mul : (b.gridStep p : ℚ) * 2 ^ (b.exponent - 2) = 10 ^ p * b.gridUnit p := by
  have hten := powerRatio_div 10 p
  have htwo := powerRatio_div 2 (b.exponent - 2)
  have hten' : ((powerRatio 10 p).2 : ℚ) ≠ 0 :=
    Nat.cast_ne_zero.mpr (powerRatio_pos (by decide) p).2.ne'
  have htwo' : ((powerRatio 2 (b.exponent - 2)).2 : ℚ) ≠ 0 :=
    Nat.cast_ne_zero.mpr (powerRatio_pos (by decide) (b.exponent - 2)).2.ne'
  push_cast at hten htwo
  rw [gridStep, gridUnit, ← hten, ← htwo]
  push_cast
  field_simp

variable {p}

theorem lt_grid_iff {n c : Nat} : n * (4 * b.significand * b.gridUnit p) < c * b.gridStep p ↔
    n * b.value < c * 10 ^ p := by
  have hquarter : (0 : ℚ) < 2 ^ (b.exponent - 2) := by positivity
  have hunit : (0 : ℚ) < b.gridUnit p := Nat.cast_pos.mpr (b.gridUnit_pos p)
  have hleft : ((n * (4 * b.significand * b.gridUnit p) : Nat) : ℚ) * 2 ^ (b.exponent - 2) =
      n * b.value * b.gridUnit p := by
    rw [value, zpow_sub₀ two_ne_zero]
    push_cast
    ring
  have hright : ((c * b.gridStep p : Nat) : ℚ) * 2 ^ (b.exponent - 2) =
      c * 10 ^ p * b.gridUnit p := by
    rw [Nat.cast_mul, mul_assoc, gridStep_mul, mul_assoc]
  rw [← Nat.cast_lt (α := ℚ), ← mul_lt_mul_iff_left₀ hquarter, hleft, hright,
    mul_lt_mul_iff_left₀ hunit]

theorem fits_iff (h : 0 < b.significand) {c : Nat} :
    b.fits p c = true ↔ 0 < c ∧ Rounds (c * 10 ^ p) b := by
  have hunit : (b.gridUnit p : ℚ) ≠ 0 := Nat.cast_ne_zero.mpr (b.gridUnit_pos p).ne'
  rw [fits, Bool.and_eq_true, decide_eq_true_eq, Nat.pos_iff_ne_zero,
    contains_iff h (b.gridUnit_pos p), Nat.cast_mul, div_mul_eq_mul_div, mul_assoc, gridStep_mul,
    ← mul_assoc, mul_div_cancel_right₀ _ hunit]

end Grid

theorem gridBelow_le (b : Binary64) (p : Int) : (b.gridBelow p : ℚ) * 10 ^ p ≤ b.value := by
  have := (b.lt_grid_iff (p := p) (n := 1) (c := b.gridBelow p)).not.mp
  rw [not_lt, not_lt, Nat.one_mul, Nat.cast_one, one_mul] at this
  exact this (Nat.div_mul_le_self _ _)

theorem lt_gridBelow (b : Binary64) (p : Int) :
    b.value < (b.gridBelow p + 1 : Nat) * 10 ^ p := by
  have := (b.lt_grid_iff (p := p) (n := 1) (c := b.gridBelow p + 1)).mp
  rw [Nat.one_mul, Nat.cast_one, one_mul] at this
  exact this (Nat.lt_mul_of_div_lt (Nat.lt_succ_self _) (b.gridStep_pos p))

/-- Of the multiples of the grid that round to `b`, the next below or the next above is one, and no
other on its side is nearer. -/
theorem fits_of_le (h : 0 < b.significand) {p : Int} {c : Nat} (hc : 0 < c)
    (hr : Rounds (c * 10 ^ p) b) (hle : c ≤ b.gridBelow p) :
    b.fits p (b.gridBelow p) = true ∧
      |(b.gridBelow p : ℚ) * 10 ^ p - b.value| ≤ |(c : ℚ) * 10 ^ p - b.value| := by
  have hpow : (0 : ℚ) < 10 ^ p := by positivity
  have hstep : (c : ℚ) * 10 ^ p ≤ b.gridBelow p * 10 ^ p := by gcongr
  have hbelow := b.gridBelow_le p
  refine ⟨(b.fits_iff h).mpr ⟨by omega, hr.convex b.rounds_value hstep hbelow⟩, ?_⟩
  rw [abs_of_nonpos (by linarith), abs_of_nonpos (by linarith)]
  linarith

theorem fits_of_gt (h : 0 < b.significand) {p : Int} {c : Nat}
    (hr : Rounds (c * 10 ^ p) b) (hlt : b.gridBelow p < c) :
    b.fits p (b.gridBelow p + 1) = true ∧
      |((b.gridBelow p + 1 : Nat) : ℚ) * 10 ^ p - b.value| ≤ |(c : ℚ) * 10 ^ p - b.value| := by
  have hpow : (0 : ℚ) < 10 ^ p := by positivity
  have hstep : ((b.gridBelow p + 1 : Nat) : ℚ) * 10 ^ p ≤ c * 10 ^ p := by gcongr; omega
  have habove := b.lt_gridBelow p
  refine ⟨(b.fits_iff h).mpr ⟨by omega, b.rounds_value.convex hr habove.le hstep⟩, ?_⟩
  rw [abs_of_nonneg (by linarith), abs_of_nonneg (by linarith)]
  linarith

theorem isHit_of_onGrid? (h : 0 < b.significand) {p : Int} {c : Nat} (hc : b.onGrid? p = some c) :
    IsHit b p c := by
  have hbelow := b.gridBelow_le p
  have habove := b.lt_gridBelow p
  have hcloser := b.lt_grid_iff (p := p) (n := 2) (c := b.gridBelow p + (b.gridBelow p + 1))
  push_cast at hcloser habove
  rw [onGrid?_eq] at hc
  simp only [Bool.and_eq_true, Bool.or_eq_true, Bool.not_eq_true', decide_eq_true_eq, hcloser] at hc
  split at hc
  next hcond =>
    obtain rfl := Option.some.inj hc
    obtain ⟨hfits, hother⟩ := hcond
    obtain ⟨hpos, hr⟩ := (b.fits_iff h).mp hfits
    refine ⟨hpos, hr, fun c' hc' hr' => ?_⟩
    rcases le_or_gt c' (b.gridBelow p) with hle | hgt
    · exact (fits_of_le h hc' hr' hle).2
    · obtain ⟨hfits', hnear⟩ := fits_of_gt h hr' hgt
      refine le_trans ?_ hnear
      have := hother.resolve_left (by rw [hfits']; decide)
      push_cast
      rw [abs_of_nonpos (by linarith), abs_of_nonneg (by linarith)]
      linarith
  next hcond =>
    obtain ⟨hfits, hc⟩ := (Option.ite_none_right_eq_some).mp hc
    obtain rfl := Option.some.inj hc
    obtain ⟨hpos, hr⟩ := (b.fits_iff h).mp hfits
    refine ⟨hpos, hr, fun c' hc' hr' => ?_⟩
    rcases le_or_gt c' (b.gridBelow p) with hle | hgt
    · obtain ⟨hfits', hnear⟩ := fits_of_le h hc' hr' hle
      refine le_trans ?_ hnear
      have : ¬ 2 * b.value < (b.gridBelow p + (b.gridBelow p + 1)) * 10 ^ p :=
        fun hlt => hcond ⟨hfits', .inr hlt⟩
      push_cast
      rw [abs_of_nonneg (by linarith), abs_of_nonpos (by linarith)]
      linarith
    · exact (fits_of_gt h hr' hgt).2

theorem onGrid?_eq_none (h : 0 < b.significand) {p : Int} (hp : b.onGrid? p = none) {c : Nat}
    (hc : 0 < c) : ¬ Rounds (c * 10 ^ p) b := by
  intro hr
  rw [onGrid?_eq] at hp
  rcases le_or_gt c (b.gridBelow p) with hle | hgt
  · have hfits := (fits_of_le h hc hr hle).1
    simp only [hfits, Bool.true_and, Bool.or_eq_true, Bool.not_eq_true'] at hp
    split at hp
    next => simp at hp
    next hcond =>
      rw [not_or, Bool.not_eq_false] at hcond
      simp [hcond.1] at hp
  · have hfits := (fits_of_gt h hr hgt).1
    simp only [hfits] at hp
    split at hp <;> simp at hp

/-- The search ends on the first grid with a hit, when there is one within its fuel. -/
theorem onGrid?_search (fuel : Nat) {p q : Int} (hq : b.onGrid? q ≠ none) (hle : q ≤ p)
    (hlt : p < q + fuel) : b.onGrid? (b.search fuel p).2 = some (b.search fuel p).1 ∧
      ∀ r, (b.search fuel p).2 < r → r ≤ p → b.onGrid? r = none := by
  induction fuel generalizing p with
  | zero => omega
  | succ fuel ih =>
    unfold search
    split
    next c hc => exact ⟨hc, fun r hlt hle => by omega⟩
    next hnone =>
      have hne : q ≠ p := by
        rintro rfl
        exact hq hnone
      obtain ⟨hhit, hcoarser⟩ := ih (p := p - 1) (by omega) (by omega)
      refine ⟨hhit, fun r hlt hle => ?_⟩
      rcases hle.eq_or_lt with rfl | hlt'
      · exact hnone
      · exact hcoarser r hlt (by omega)

/-- A grid with steps of less than half the unit of `b` has a number that rounds to `b`. -/
theorem onGrid?_ne_none (h : 0 < b.significand) {p : Int}
    (hp : (10 : ℚ) ^ p < 2 ^ (b.exponent - 1)) : b.onGrid? p ≠ none := by
  intro hnone
  have hunit : (0 : ℚ) < 2 ^ b.exponent := by positivity
  have hlow := b.lowEnd_lt
  have hbelow := b.gridBelow_le p
  have habove := b.lt_gridBelow p
  refine onGrid?_eq_none h hnone (Nat.succ_pos (b.gridBelow p)) ?_
  have hhigh :
      ((b.gridBelow p + 1 : Nat) : ℚ) * 10 ^ p / 2 ^ b.exponent < b.significand + 1 / 2 := by
    rw [div_lt_iff₀ hunit]
    rw [zpow_sub_one₀ two_ne_zero] at hp
    rw [value] at hbelow
    push_cast
    linarith
  have hmid : (b.significand : ℚ) < ((b.gridBelow p + 1 : Nat) : ℚ) * 10 ^ p / 2 ^ b.exponent := by
    rwa [lt_div_iff₀ hunit]
  refine ⟨by linarith, hhigh.le, fun ht => ?_⟩
  rcases ht with ht | ht <;> linarith

/-- The number `c * 10 ^ p` rounds to `b`, no number on a coarser grid does, and none on this one is
nearer. -/
structure IsShortest (b : Binary64) (c : Nat) (p : Int) : Prop extends IsHit b p c where
  coarsest : ∀ (c' : Nat) (p' : Int), p < p' → 0 < c' → ¬ Rounds (c' * 10 ^ p') b

/-- The binary order of a number, with the grid from which the search for it starts. -/
def order (b : Binary64) : Int := b.exponent + (b.significand.log2 : Int) + 1

def firstGrid (b : Binary64) : Int := b.order * 30103 / 100000 + 1

theorem shortest_eq (h : 0 < b.significand) : b.shortest = b.search 22 b.firstGrid := by
  rw [shortest, if_neg h.ne']
  rfl

theorem value_lt (b : Binary64) : b.value < 2 ^ b.order := by
  have hlt : (b.significand : ℚ) < 2 ^ ((b.significand.log2 : Int) + 1) := by
    exact_mod_cast Nat.lt_log2_self
  calc b.value < 2 ^ ((b.significand.log2 : Int) + 1) * 2 ^ b.exponent := by
        rw [value]
        gcongr
    _ = 2 ^ b.order := by
      rw [← zpow_add₀ two_ne_zero, order]
      congr 1
      omega

theorem Canonical.order_bounds (hb : b.Canonical) (h : 0 < b.significand) :
    b.exponent < b.order ∧ b.order ≤ b.exponent + 53 := by
  have := (Nat.log2_lt h.ne').mpr hb.significand_lt
  rw [order]
  omega

/-- Beyond the first grid, every multiple is greater than the numbers that round to `b`. -/
theorem not_rounds_of_firstGrid (hb : b.Canonical) (hmax : b.exponent ≤ maxExponent)
    (h : 0 < b.significand) {c : Nat} (hc : 0 < c) {p : Int} (hp : b.firstGrid < p) :
    ¬ Rounds (c * 10 ^ p) b := by
  intro hr
  obtain ⟨hlo, hhi⟩ := hb.order_bounds h
  have hunit : (0 : ℚ) < 2 ^ b.exponent := by positivity
  have hvalue := b.value_lt
  have hup := hr.upper
  rw [div_le_iff₀ hunit, add_mul, ← value] at hup
  have hunit' : (2 : ℚ) ^ b.exponent ≤ 2 ^ b.order := zpow_le_zpow_right₀ one_le_two hlo.le
  have hten : (2 : ℚ) ^ (b.order + 1) < 10 ^ p := by
    have : -1074 ≤ b.exponent ∧ b.exponent ≤ 971 := ⟨hb.least, hmax⟩
    rw [firstGrid] at hp
    exact two_zpow_lt_ten_zpow (by omega) (by omega)
  have hgrid : (10 : ℚ) ^ p ≤ c * 10 ^ p :=
    le_mul_of_one_le_left (by positivity) (by exact_mod_cast hc)
  rw [zpow_add_one₀ two_ne_zero] at hten
  linarith

theorem isShortest_shortest (hb : b.Canonical) (hmax : b.exponent ≤ maxExponent)
    (h : 0 < b.significand) : IsShortest b b.shortest.1 b.shortest.2 := by
  have hfine : (10 : ℚ) ^ (b.firstGrid - 21) < 2 ^ (b.exponent - 1) := by
    obtain ⟨hlo, hhi⟩ := hb.order_bounds h
    have : -1074 ≤ b.exponent ∧ b.exponent ≤ 971 := ⟨hb.least, hmax⟩
    rw [firstGrid]
    exact ten_zpow_lt_two_zpow (by omega) (by omega)
  obtain ⟨hhit, hcoarser⟩ := onGrid?_search 22 (p := b.firstGrid)
    (onGrid?_ne_none h hfine) (by omega) (by omega)
  rw [shortest_eq h]
  refine ⟨isHit_of_onGrid? h hhit, fun c' p' hlt hpos => ?_⟩
  rcases le_or_gt p' b.firstGrid with hle | hgt
  · exact onGrid?_eq_none h (hcoarser p' hlt hle) hpos
  · exact not_rounds_of_firstGrid hb hmax h hpos hgt

/-- The shortest decimal number of a binary number reads back as it. -/
theorem nearest?_shortest (hb : b.Canonical) (hmax : b.exponent ≤ maxExponent) (negative : Bool) :
    Decimal.nearest? ⟨negative, b.shortest.1, b.shortest.2⟩ = some b := by
  rcases b.significand.eq_zero_or_pos with h | h
  · have hzero : b = zero := by
      have := hb.normal.resolve_right (by omega)
      cases b
      simp_all [zero]
    subst hzero
    rfl
  · exact Decimal.nearest?_eq_some_iff.mpr ⟨hb, hmax, (isShortest_shortest hb hmax h).rounds⟩

end BoundSql.Binary64
