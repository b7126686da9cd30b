import Mathlib.Algebra.Order.Field.Rat
import Mathlib.Tactic.FieldSimp
import Mathlib.Tactic.Positivity
import TemplateStyles.Proofs.Number.Printing
/-!
# The nearest double

`Magnitude.IsNearest` says what rounding has to do, without an algorithm: no other double is nearer,
and one with an odd mantissa has no other at the same distance. A double is nearest to a fraction in
this sense just if the fraction lies in its interval (`owns_iff_isNearest`). Main result
`Binary64.ofDecimal_eq_iff`: a decimal is read as the double nearest to it, and as an infinity from
half a last place beyond the largest double.
-/
namespace TemplateStyles.Magnitude

/-! ## Quotients -/

/-- The rounded quotient is within half a divisor, and nearer if it is odd. -/
theorem roundDiv_spec {n d : Nat} (hd : 0 < d) :
    2 * (roundDiv n d * d) ≤ 2 * n + d ∧ 2 * n ≤ 2 * (roundDiv n d * d) + d ∧
      (roundDiv n d % 2 = 1 →
        2 * (roundDiv n d * d) < 2 * n + d ∧ 2 * n < 2 * (roundDiv n d * d) + d) := by
  have hdiv : n / d * d + n % d = n := by rw [Nat.mul_comm, Nat.div_add_mod]
  have hrest : n % d < d := Nat.mod_lt n hd
  have hnext : (n / d + 1) * d = n / d * d + d := Nat.succ_mul ..
  unfold roundDiv
  dsimp only
  split
  · omega
  · rw [hnext]
    omega

/-! ## Intervals -/

theorem reach_of_odd {m : Magnitude} (h : m.mantissa % 2 = 1) : m.reach = 2 :=
  if_neg fun hpower => by omega

/-- The interval of a double, with its last place as unit. -/
theorem owns_of_bounds {m : Magnitude} {num den unit value : Nat} (hden : 0 < den)
    (hunit : unit = den * Nat.pow 2 m.scale) (hvalue : value = num * denominator)
    (hlow : 4 * (m.mantissa * unit) ≤ 4 * value + m.reach * unit)
    (hhigh : 2 * value ≤ 2 * (m.mantissa * unit) + unit)
    (hodd : m.mantissa % 2 = 1 → 2 * (m.mantissa * unit) < 2 * value + unit ∧
      2 * value < 2 * (m.mantissa * unit) + unit) : m.Owns (num * quarter) den := by
  have hquarter : num * quarter = 4 * value := by
    rw [quarter, hvalue]
    ring
  have hpos : 0 < unit := by
    rw [hunit]
    exact Nat.mul_pos hden (Nat.two_pow_pos _)
  have hlower : (4 * m.mantissa - m.reach) * unit = 4 * (m.mantissa * unit) - m.reach * unit := by
    rw [Nat.sub_mul, Nat.mul_assoc]
  have hupper : (4 * m.mantissa + 2) * unit = 4 * (m.mantissa * unit) + 2 * unit := by ring
  refine ⟨hden, ?_, ?_, fun h => ⟨?_, ?_⟩⟩
  · rw [hquarter, lowerEnd_mul, ← hunit, hlower]
    omega
  · rw [hquarter, upperEnd_mul, ← hunit, hupper]
    omega
  · have hone : unit ≤ m.mantissa * unit := Nat.le_mul_of_pos_left unit (by omega)
    have := (hodd h).1
    rw [hquarter, lowerEnd_mul, ← hunit, hlower, reach_of_odd h]
    omega
  · have := (hodd h).2
    rw [hquarter, upperEnd_mul, ← hunit, hupper]
    omega

/-- A fraction that is rounded at the scale of a double to its mantissa. Below a power of two the
interval is shorter, but at this scale no fraction is below it. -/
theorem owns_of_rounded {m : Magnitude} {num den unit value : Nat} (hden : 0 < den)
    (hunit : unit = den * Nat.pow 2 m.scale) (hvalue : value = num * denominator)
    (habove : m.scale = 0 ∨ 0x10000000000000 * unit ≤ value)
    (hlow : 2 * (m.mantissa * unit) ≤ 2 * value + unit)
    (hhigh : 2 * value ≤ 2 * (m.mantissa * unit) + unit)
    (hodd : m.mantissa % 2 = 1 → 2 * (m.mantissa * unit) < 2 * value + unit ∧
      2 * value < 2 * (m.mantissa * unit) + unit) : m.Owns (num * quarter) den := by
  refine owns_of_bounds hden hunit hvalue ?_ hhigh hodd
  by_cases hpower : m.mantissa = 0x10000000000000 ∧ m.scale ≠ 0
  · have := habove.resolve_left hpower.2
    rw [hpower.1]
    omega
  · have hreach : m.reach = 2 := if_neg hpower
    rw [hreach]
    omega

/-- A fraction that is rounded up to a power of two at the next lower scale. -/
theorem owns_of_carry {m : Magnitude} {num den unit value k : Nat} (hden : 0 < den)
    (hmantissa : m.mantissa = 0x10000000000000) (hk : m.scale = k + 1)
    (hunit : unit = den * Nat.pow 2 k) (hvalue : value = num * denominator)
    (hbelow : value < 0x20000000000000 * unit)
    (hlow : 2 * (0x20000000000000 * unit) ≤ 2 * value + unit) : m.Owns (num * quarter) den := by
  have hreach : m.reach = 1 := if_pos ⟨hmantissa, by omega⟩
  refine owns_of_bounds hden rfl hvalue ?_ ?_ ?_
  · rw [hreach, hmantissa, unit_of_succ hk, ← hunit]
    omega
  · rw [hmantissa, unit_of_succ hk, ← hunit]
    omega
  · rw [hmantissa]
    omega

/-- What the scale says about the fraction that is rounded at it. -/
theorem bounds_of_scale {n den : Nat} (hden : 0 < den) :
    n < 0x20000000000000 * (den * Nat.pow 2 (Nat.log2 (n / den) - 52)) ∧
      (Nat.log2 (n / den) - 52 = 0 ∨
        0x10000000000000 * (den * Nat.pow 2 (Nat.log2 (n / den) - 52)) ≤ n) := by
  have hshift : ∀ a k, 2 ^ (a + k) * den = 2 ^ a * (den * Nat.pow 2 k) := fun a k => by
    rw [Nat.pow_eq]
    ring
  constructor
  · have hlog : n / den < 2 ^ (53 + (Nat.log2 (n / den) - 52)) :=
      Nat.lt_of_lt_of_le Nat.lt_log2_self (Nat.pow_le_pow_right (by decide) (by omega))
    rwa [Nat.div_lt_iff_lt_mul hden, hshift] at hlog
  · by_cases hscale : Nat.log2 (n / den) - 52 = 0
    · exact .inl hscale
    · refine .inr ?_
      have hne : n / den ≠ 0 := by
        intro hzero
        rw [hzero] at hscale
        exact hscale (by decide)
      have hlog : 2 ^ (52 + (Nat.log2 (n / den) - 52)) ≤ n / den :=
        Nat.le_trans (Nat.pow_le_pow_right (by decide) (by omega)) (Nat.log2_self_le hne)
      rwa [Nat.le_div_iff_mul_le hden, hshift] at hlog

theorem exists_ofParts? (mantissa scale : Nat) (hmantissa : mantissa < 0x20000000000000)
    (hscale : scale ≤ 2045) (hcanonical : scale = 0 ∨ 0x10000000000000 ≤ mantissa) :
    ∃ m : Magnitude, ofParts? mantissa scale = some m ∧ m.mantissa = mantissa ∧ m.scale = scale :=
  ⟨_, dif_pos ⟨hmantissa, hscale, hcanonical⟩, rfl, rfl⟩

/-- The double with the largest value. -/
def largest : Magnitude := ⟨0x1FFFFFFFFFFFFF, 2045, by decide, by decide, .inr (by decide)⟩

/-- **A fraction is rounded to a double that owns it**, unless it is at least half a last place
beyond the largest double. -/
theorem nearest?_spec (num : Nat) {den : Nat} (hden : 0 < den) :
    (∃ m : Magnitude, nearest? num den = some m ∧ m.Owns (num * quarter) den) ∨
      nearest? num den = none ∧ (2 * largest.mantissa + 1) * (den * Nat.pow 2 largest.scale) ≤
        2 * (num * denominator) := by
  obtain ⟨hbelow, habove⟩ := bounds_of_scale (n := num * denominator) hden
  have hle := roundDiv_le (num * denominator) den
  unfold nearest?
  dsimp only
  generalize Nat.log2 (num * denominator / den) - 52 = k at *
  generalize hvalue : num * denominator = value at *
  generalize hunit : den * Nat.pow 2 k = unit at *
  have hpos : 0 < unit := by
    rw [← hunit]
    exact Nat.mul_pos hden (Nat.two_pow_pos _)
  obtain ⟨hlow, hhigh, hodd⟩ := roundDiv_spec (n := value) hpos
  generalize roundDiv value unit = r at *
  -- a unit at least as large as that of the largest double
  have hbeyond : ∀ j, largest.scale + j ≤ k → 2 ^ j * (den * Nat.pow 2 largest.scale) ≤ unit := by
    intro j hj
    rw [← hunit, Nat.pow_eq, Nat.pow_eq, Nat.mul_left_comm, ← Nat.pow_add, Nat.add_comm j]
    exact Nat.mul_le_mul_left den (Nat.pow_le_pow_right (by decide) hj)
  have hlargest : 2 * largest.mantissa + 1 = 0x3FFFFFFFFFFFFF := rfl
  have hscale : largest.scale = 2045 := rfl
  split
  · rename_i hcarry
    rw [hcarry] at hlow
    by_cases hk : k + 1 ≤ 2045
    · obtain ⟨m, hm, hmantissa, hscale⟩ :=
        exists_ofParts? 0x10000000000000 (k + 1) (by decide) hk (.inr le_rfl)
      exact .inl ⟨m, hm, owns_of_carry hden hmantissa hscale hunit.symm hvalue.symm hbelow hlow⟩
    · have := hbeyond 0 (by omega)
      refine .inr ⟨dif_neg fun h => hk h.2.1, ?_⟩
      rw [hlargest]
      omega
  · by_cases hk : k ≤ 2045
    · have hcanonical : k = 0 ∨ 0x10000000000000 ≤ r := by
        refine habove.imp_right fun habove => ?_
        by_contra hr
        have := Nat.mul_le_mul_right unit (show r ≤ 0xFFFFFFFFFFFFF by omega)
        omega
      obtain ⟨m, hm, rfl, rfl⟩ := exists_ofParts? r k (by omega) hk hcanonical
      exact .inl ⟨m, hm,
        owns_of_rounded hden hunit.symm hvalue.symm habove hlow hhigh hodd⟩
    · have := hbeyond 1 (by omega)
      have := habove.resolve_left (by omega)
      refine .inr ⟨dif_neg fun h => hk h.2.1, ?_⟩
      rw [hlargest]
      omega

/-! ## Values -/

theorem two_mul_pow_le {a b : Nat} (h : a < b) : 2 * 2 ^ a ≤ 2 ^ b := by
  rw [← Nat.pow_succ']
  exact Nat.pow_le_pow_right (by decide) h

theorem eq_of_parts {m n : Magnitude} (hmantissa : n.mantissa = m.mantissa)
    (hscale : n.scale = m.scale) : n = m := by
  cases m
  cases n
  simp_all

/-- Another double is a last place away, or below a power of two half of one. -/
theorem numerator_of_ne {m n : Magnitude} (h : n ≠ m) :
    m.numerator + 2 ^ m.scale ≤ n.numerator ∨
      2 * n.numerator + m.reach * 2 ^ m.scale ≤ 2 * m.numerator := by
  have hunit : 0 < 2 ^ m.scale := Nat.two_pow_pos _
  simp only [numerator, Nat.pow_eq]
  rcases Nat.lt_trichotomy m.scale n.scale with hlt | heq | hgt
  · left
    have hfull : 0x10000000000000 ≤ n.mantissa := n.canonical.resolve_left (by omega)
    calc m.mantissa * 2 ^ m.scale + 2 ^ m.scale = (m.mantissa + 1) * 2 ^ m.scale := by ring
      _ ≤ 0x20000000000000 * 2 ^ m.scale := Nat.mul_le_mul_right _ m.mantissa_lt
      _ = 0x10000000000000 * (2 * 2 ^ m.scale) := by ring
      _ ≤ n.mantissa * 2 ^ n.scale := Nat.mul_le_mul hfull (two_mul_pow_le hlt)
  · rw [← heq]
    rcases Nat.lt_or_gt_of_ne fun hmantissa => h (eq_of_parts hmantissa heq.symm) with hlt | hgt
    · right
      have hnext := Nat.mul_le_mul_right (2 ^ m.scale) (Nat.succ_le_of_lt hlt)
      have hreach := Nat.mul_le_mul_right (2 ^ m.scale) m.reach_le
      rw [Nat.succ_mul] at hnext
      omega
    · left
      have hnext := Nat.mul_le_mul_right (2 ^ m.scale) (Nat.succ_le_of_lt hgt)
      rwa [Nat.succ_mul] at hnext
  · right
    have hfull : 0x10000000000000 ≤ m.mantissa := m.canonical.resolve_left (by omega)
    have hbound : 0x1FFFFFFFFFFFFF + m.reach ≤ 2 * m.mantissa := by
      unfold reach
      split <;> omega
    calc 2 * (n.mantissa * 2 ^ n.scale) + m.reach * 2 ^ m.scale
        ≤ 0x1FFFFFFFFFFFFF * (2 * 2 ^ n.scale) + m.reach * 2 ^ m.scale := by
          have hmax := Nat.mul_le_mul_right (2 ^ n.scale) (Nat.le_of_lt_succ n.mantissa_lt)
          omega
      _ ≤ 0x1FFFFFFFFFFFFF * 2 ^ m.scale + m.reach * 2 ^ m.scale := by
          have htwice := two_mul_pow_le hgt
          omega
      _ = (0x1FFFFFFFFFFFFF + m.reach) * 2 ^ m.scale := by ring
      _ ≤ 2 * m.mantissa * 2 ^ m.scale := Nat.mul_le_mul_right _ hbound
      _ = 2 * (m.mantissa * 2 ^ m.scale) := by ring

/-- The value of a magnitude. -/
def value (m : Magnitude) : ℚ := m.numerator / denominator

/-- The distance to the next larger magnitude. -/
def lastPlace (m : Magnitude) : ℚ := (2 ^ m.scale : Nat) / denominator

theorem denominator_cast_pos : (0 : ℚ) < denominator := Nat.cast_pos.2 denominator_pos

theorem lastPlace_pos (m : Magnitude) : 0 < m.lastPlace :=
  div_pos (Nat.cast_pos.2 (Nat.two_pow_pos _)) denominator_cast_pos

theorem value_eq (m : Magnitude) : m.value = m.mantissa * m.lastPlace := by
  rw [value, lastPlace, numerator, Nat.pow_eq, Nat.cast_mul]
  ring

theorem value_of_ne {m n : Magnitude} (h : n ≠ m) :
    m.value + m.lastPlace ≤ n.value ∨ n.value + m.reach / 2 * m.lastPlace ≤ m.value := by
  have hpos := denominator_cast_pos
  refine (numerator_of_ne h).imp (fun hle => ?_) fun hle => ?_
  · rw [value, value, lastPlace, ← add_div, div_le_div_iff_of_pos_right hpos]
    exact_mod_cast hle
  · have hcast : (2 * n.numerator + m.reach * (2 ^ m.scale : Nat) : ℚ) ≤ 2 * m.numerator := by
      exact_mod_cast hle
    have hsum : n.value + m.reach / 2 * m.lastPlace =
        (n.numerator + m.reach * (2 ^ m.scale : Nat) / 2) / denominator := by
      rw [value, lastPlace]
      ring
    rw [hsum, value, div_le_div_iff_of_pos_right hpos]
    linarith

theorem lastPlace_congr {m n : Magnitude} (h : n.scale = m.scale) : n.lastPlace = m.lastPlace := by
  rw [lastPlace, lastPlace, h]

theorem lastPlace_of_succ {m n : Magnitude} (h : n.scale = m.scale + 1) :
    n.lastPlace = 2 * m.lastPlace := by
  rw [lastPlace, lastPlace, h, Nat.pow_succ, Nat.cast_mul]
  ring

/-- The next larger double. -/
theorem exists_next {m : Magnitude} (h : m ≠ largest) :
    ∃ n : Magnitude, n.value = m.value + m.lastPlace := by
  have hlt := m.mantissa_lt
  have hscale := m.scale_le
  by_cases hlast : m.mantissa = 0x1FFFFFFFFFFFFF
  · have hne : m.scale ≠ 2045 := fun hscale => h (eq_of_parts hlast hscale)
    obtain ⟨n, -, hmantissa, hn⟩ := exists_ofParts? 0x10000000000000 (m.scale + 1)
      (by decide) (by omega) (.inr le_rfl)
    refine ⟨n, ?_⟩
    rw [value_eq, value_eq, hmantissa, hlast, lastPlace_of_succ hn]
    push_cast
    ring
  · obtain ⟨n, -, hmantissa, hn⟩ := exists_ofParts? (m.mantissa + 1) m.scale
      (by omega) hscale (m.canonical.imp_right fun h => by omega)
    refine ⟨n, ?_⟩
    rw [value_eq, value_eq, hmantissa, lastPlace_congr hn]
    push_cast
    ring

/-- The next smaller double. -/
theorem exists_previous {m : Magnitude} (h : m.mantissa ≠ 0) :
    ∃ n : Magnitude, n.value = m.value - m.reach / 2 * m.lastPlace := by
  have hlt := m.mantissa_lt
  have hscale := m.scale_le
  by_cases hpower : m.mantissa = 0x10000000000000 ∧ m.scale ≠ 0
  · obtain ⟨k, hk⟩ := Nat.exists_eq_succ_of_ne_zero hpower.2
    have hreach : m.reach = 1 := if_pos hpower
    obtain ⟨n, -, hmantissa, hn⟩ := exists_ofParts? 0x1FFFFFFFFFFFFF k
      (by decide) (by omega) (.inr (by decide))
    have hunit : m.lastPlace = 2 * n.lastPlace := lastPlace_of_succ (by rw [hn, hk])
    refine ⟨n, ?_⟩
    rw [value_eq, value_eq, hmantissa, hpower.1, hreach, hunit]
    push_cast
    ring
  · have hreach : m.reach = 2 := if_neg hpower
    obtain ⟨n, -, hmantissa, hn⟩ := exists_ofParts? (m.mantissa - 1) m.scale
      (by omega) hscale (by have := m.canonical; omega)
    refine ⟨n, ?_⟩
    rw [value_eq, value_eq, hmantissa, hreach, lastPlace_congr hn,
      Nat.cast_pred (Nat.pos_of_ne_zero h)]
    push_cast
    ring

/-! ## Distances -/

theorem abs_sub_le_iff_le_mid {x y q : ℚ} (h : x < y) : |x - q| ≤ |y - q| ↔ q ≤ (x + y) / 2 := by
  have hdiff : (y - q) ^ 2 - (x - q) ^ 2 = (y - x) * (x + y - 2 * q) := by ring
  rw [← sq_le_sq, ← sub_nonneg, hdiff, mul_nonneg_iff_of_pos_left (sub_pos.2 h)]
  constructor <;> intro <;> linarith

theorem abs_sub_le_iff_mid_le {x y q : ℚ} (h : y < x) : |x - q| ≤ |y - q| ↔ (x + y) / 2 ≤ q := by
  have hdiff : (y - q) ^ 2 - (x - q) ^ 2 = (x - y) * (2 * q - (x + y)) := by ring
  rw [← sq_le_sq, ← sub_nonneg, hdiff, mul_nonneg_iff_of_pos_left (sub_pos.2 h)]
  constructor <;> intro <;> linarith

theorem abs_sub_eq_iff {x y q : ℚ} (h : x ≠ y) : |x - q| = |y - q| ↔ q = (x + y) / 2 := by
  rw [abs_eq_abs]
  constructor
  · rintro (heq | heq)
    · exact absurd (sub_left_inj.1 heq) h
    · linarith
  · rintro rfl
    right
    ring

/-! ## The nearest magnitude -/

/-- No double is nearer to `q`, and none is as near, unless the mantissa is even. -/
structure IsNearest (m : Magnitude) (q : ℚ) : Prop where
  near : ∀ n : Magnitude, |m.value - q| ≤ |n.value - q|
  even : ∀ n : Magnitude, n ≠ m → |m.value - q| = |n.value - q| → m.mantissa % 2 = 0

/-- Half a last place beyond the largest double. -/
def overflow : ℚ := largest.value + largest.lastPlace / 2

/-- The interval of a double, as values. -/
structure IsAround (m : Magnitude) (q : ℚ) : Prop where
  low : m.value - m.reach / 4 * m.lastPlace ≤ q
  high : q ≤ m.value + m.lastPlace / 2
  odd : m.mantissa % 2 = 1 → m.value - m.lastPlace / 2 < q ∧ q < m.value + m.lastPlace / 2

/-- Values are compared by their numerators. -/
theorem cast_compare {a b : Nat} {x y d : ℚ} (hd : 0 < d) (h : (b : ℚ) - a = (y - x) * d) :
    (a ≤ b ↔ x ≤ y) ∧ (a < b ↔ x < y) := by
  constructor
  · rw [← @Nat.cast_le ℚ, ← sub_nonneg, h, mul_nonneg_iff_of_pos_right hd, sub_nonneg]
  · rw [← @Nat.cast_lt ℚ, ← sub_pos, h, mul_pos_iff_of_pos_right hd, sub_pos]

/-- A fraction and the last place of a double, over one denominator. -/
theorem cast_scaled (m : Magnitude) (num : Nat) {den : Nat} (hden : 0 < den) :
    ((num * denominator : Nat) : ℚ) = num / den * (den * denominator) ∧
      ((den * Nat.pow 2 m.scale : Nat) : ℚ) = m.lastPlace * (den * denominator) := by
  have hden' : (0 : ℚ) < den := Nat.cast_pos.2 hden
  have hdenominator := denominator_cast_pos
  rw [lastPlace, Nat.pow_eq, Nat.cast_mul, Nat.cast_mul]
  constructor <;> field_simp

theorem owns_iff_isAround {m : Magnitude} {num den : Nat} (hden : 0 < den) :
    m.Owns (num * quarter) den ↔ m.IsAround (num / den) := by
  obtain ⟨hq, hu⟩ := cast_scaled m num hden
  have hd : (0 : ℚ) < den * denominator := mul_pos (Nat.cast_pos.2 hden) denominator_cast_pos
  generalize hunit : den * Nat.pow 2 m.scale = unit at hu
  generalize hvalue : num * denominator = value at hq
  generalize (num : ℚ) / den = q at *
  generalize (den : ℚ) * denominator = d at *
  have hlow := cast_compare (a := 4 * (m.mantissa * unit)) (b := 4 * value + m.reach * unit)
    (x := m.value - m.reach / 4 * m.lastPlace) (y := q) (d := 4 * d) (by positivity) (by
      push_cast
      rw [hq, hu, value_eq]
      ring)
  have hhigh := cast_compare (a := 2 * value) (b := 2 * (m.mantissa * unit) + unit) (x := q)
    (y := m.value + m.lastPlace / 2) (d := 2 * d) (by positivity) (by
      push_cast
      rw [hq, hu, value_eq]
      ring)
  have hodd := cast_compare (a := 2 * (m.mantissa * unit)) (b := 2 * value + unit)
    (x := m.value - m.lastPlace / 2) (y := q) (d := 2 * d) (by positivity) (by
      push_cast
      rw [hq, hu, value_eq]
      ring)
  constructor
  · intro h
    obtain ⟨h1, h2, h3⟩ := h.bounds hunit.symm hvalue.symm
    exact ⟨hlow.1.1 h1, hhigh.1.1 h2, fun hm => ⟨hodd.2.1 (h3 hm).1, hhigh.2.1 (h3 hm).2⟩⟩
  · rintro ⟨h1, h2, h3⟩
    exact owns_of_bounds hden hunit.symm hvalue.symm (hlow.1.2 h1) (hhigh.1.2 h2)
      fun hm => ⟨hodd.2.2 (h3 hm).1, hhigh.2.2 (h3 hm).2⟩

/-- A fraction that is beyond a double by half a last place. -/
theorem beyond_iff {m : Magnitude} {num den : Nat} (hden : 0 < den) :
    (2 * m.mantissa + 1) * (den * Nat.pow 2 m.scale) ≤ 2 * (num * denominator) ↔
      m.value + m.lastPlace / 2 ≤ num / den := by
  obtain ⟨hq, hu⟩ := cast_scaled m num hden
  have hd : (0 : ℚ) < den * denominator := mul_pos (Nat.cast_pos.2 hden) denominator_cast_pos
  generalize den * Nat.pow 2 m.scale = unit at *
  generalize num * denominator = value at *
  generalize (num : ℚ) / den = q at *
  generalize (den : ℚ) * denominator = d at *
  refine (cast_compare (d := 2 * d) (by positivity) ?_).1
  push_cast
  rw [hq, hu, value_eq]
  ring

theorem value_le_largest (m : Magnitude) : m.value ≤ largest.value := by
  have hmantissa : m.mantissa ≤ largest.mantissa := Nat.le_of_lt_succ m.mantissa_lt
  have hscale : m.scale ≤ largest.scale := m.scale_le
  rw [value, value, div_le_div_iff_of_pos_right denominator_cast_pos, Nat.cast_le, numerator,
    numerator, Nat.pow_eq, Nat.pow_eq]
  exact Nat.mul_le_mul hmantissa (Nat.pow_le_pow_right (by decide) hscale)

namespace IsAround

variable {m : Magnitude} {q : ℚ}

theorem near (h : m.IsAround q) (n : Magnitude) : |m.value - q| ≤ |n.value - q| := by
  have hplace := m.lastPlace_pos
  by_cases hne : n = m
  · rw [hne]
  · rcases value_of_ne hne with habove | hbelow
    · have := h.high
      exact (abs_sub_le_iff_le_mid (by linarith)).2 (by linarith)
    · have := h.low
      have hreach : (0 : ℚ) < m.reach := Nat.cast_pos.2 m.reach_pos
      have := mul_pos hreach hplace
      exact (abs_sub_le_iff_mid_le (by linarith)).2 (by linarith)

theorem even (h : m.IsAround q) {n : Magnitude} (hne : n ≠ m)
    (heq : |m.value - q| = |n.value - q|) : m.mantissa % 2 = 0 := by
  have hplace := m.lastPlace_pos
  by_contra hodd
  have hodd : m.mantissa % 2 = 1 := by omega
  obtain ⟨hlow, hhigh⟩ := h.odd hodd
  rcases value_of_ne hne with habove | hbelow
  · have := (abs_sub_eq_iff (by linarith)).1 heq
    linarith
  · rw [reach_of_odd hodd] at hbelow
    push_cast at hbelow
    have := (abs_sub_eq_iff (by linarith)).1 heq
    linarith

theorem lt_overflow (h : m.IsAround q) : q < overflow := by
  have hplace := m.lastPlace_pos
  by_cases hlargest : m = largest
  · rw [hlargest] at h
    exact (h.odd rfl).2
  · have hhigh := h.high
    have hlast := largest.lastPlace_pos
    have hle := m.value_le_largest
    have hreach : (0 : ℚ) < m.reach := Nat.cast_pos.2 m.reach_pos
    have := mul_pos hreach hplace
    unfold overflow
    rcases value_of_ne (Ne.symm hlargest) with habove | hbelow <;> linarith

end IsAround

/-- With an odd mantissa there is no tie. -/
theorem IsNearest.ne_mid {m : Magnitude} {q : ℚ} (h : m.IsNearest q) (hodd : m.mantissa % 2 = 1)
    {n : Magnitude} (hne : n.value ≠ m.value) : q ≠ (m.value + n.value) / 2 := by
  intro heq
  have htie := (abs_sub_eq_iff hne.symm).2 heq
  have heven := h.even n (fun hnm => hne (congrArg value hnm)) htie
  omega

theorem IsNearest.isAround {m : Magnitude} {q : ℚ} (h : m.IsNearest q) (hzero : 0 ≤ q)
    (hoverflow : q < overflow) : m.IsAround q := by
  have hplace := m.lastPlace_pos
  have hreach : (0 : ℚ) < m.reach := Nat.cast_pos.2 m.reach_pos
  have hmul := mul_pos hreach hplace
  refine ⟨?_, ?_, fun hodd => ⟨?_, ?_⟩⟩
  · by_cases hmantissa : m.mantissa = 0
    · have hvalue : m.value = 0 := by rw [value_eq, hmantissa, Nat.cast_zero, zero_mul]
      linarith
    · obtain ⟨n, hn⟩ := exists_previous hmantissa
      have := (abs_sub_le_iff_mid_le (by linarith)).1 (h.near n)
      linarith
  · by_cases hlargest : m = largest
    · rw [hlargest]
      exact hoverflow.le
    · obtain ⟨n, hn⟩ := exists_next hlargest
      have := (abs_sub_le_iff_le_mid (by linarith)).1 (h.near n)
      linarith
  · obtain ⟨n, hn⟩ := exists_previous (m := m) (by omega)
    rw [reach_of_odd hodd] at hn
    push_cast at hn
    have hmid := (abs_sub_le_iff_mid_le (by linarith)).1 (h.near n)
    have hne := h.ne_mid hodd (n := n) (by linarith)
    exact lt_of_le_of_ne (by linarith) fun heq => hne (by linarith)
  · by_cases hlargest : m = largest
    · rw [hlargest]
      exact hoverflow
    · obtain ⟨n, hn⟩ := exists_next hlargest
      have hmid := (abs_sub_le_iff_le_mid (by linarith)).1 (h.near n)
      have hne := h.ne_mid hodd (n := n) (by linarith)
      exact lt_of_le_of_ne (by linarith) fun heq => hne (by linarith)

/-- **A double is nearest to a fraction just if the fraction lies in its interval.** -/
theorem owns_iff_isNearest {m : Magnitude} {num den : Nat} (hden : 0 < den) :
    m.Owns (num * quarter) den ↔ m.IsNearest (num / den) ∧ (num / den : ℚ) < overflow := by
  have hzero : (0 : ℚ) ≤ num / den := by positivity
  rw [owns_iff_isAround hden]
  exact ⟨fun h => ⟨⟨h.near, fun _ => h.even⟩, h.lt_overflow⟩, fun h => h.1.isAround hzero h.2⟩

theorem nearest?_eq_some_iff {m : Magnitude} (num : Nat) {den : Nat} (hden : 0 < den) :
    nearest? num den = some m ↔ m.IsNearest (num / den) ∧ (num / den : ℚ) < overflow := by
  rw [← owns_iff_isNearest hden]
  refine ⟨fun h => ?_, nearest?_of_owns⟩
  rcases nearest?_spec num hden with ⟨n, hn, howns⟩ | ⟨hnone, -⟩
  · rw [h, Option.some.injEq] at hn
    rwa [hn]
  · rw [hnone] at h
    simp at h

theorem nearest?_eq_none_iff (num : Nat) {den : Nat} (hden : 0 < den) :
    nearest? num den = none ↔ overflow ≤ (num / den : ℚ) := by
  constructor
  · intro h
    rcases nearest?_spec num hden with ⟨n, hn, -⟩ | ⟨-, hle⟩
    · rw [h] at hn
      simp at hn
    · exact (beyond_iff hden).1 hle
  · intro h
    refine Option.eq_none_iff_forall_ne_some.2 fun m hm => ?_
    exact absurd ((nearest?_eq_some_iff num hden).1 hm).2 (not_lt.2 h)

end Magnitude

namespace Binary64

open Magnitude

/-- The double nearest to `q`, with the sign: an infinity from half a last place beyond the largest
double. -/
def IsNearest (negative : Bool) (q : ℚ) : Binary64 → Prop
  | finite sign m => sign = negative ∧ m.IsNearest q ∧ q < overflow
  | infinite sign => sign = negative ∧ overflow ≤ q
  | nan => False

/-- **A decimal is read as the double nearest to it.** -/
theorem ofDecimal_eq_iff {negative : Bool} {digits places : Nat} {x : Binary64} :
    ofDecimal negative digits places = x ↔ x.IsNearest negative (digits / 10 ^ places) := by
  have hden : 0 < Nat.pow 10 places := Nat.pow_pos (by decide)
  have hcast : ((Nat.pow 10 places : Nat) : ℚ) = 10 ^ places := by
    rw [Nat.pow_eq]
    push_cast
    rfl
  have hsome := fun m => nearest?_eq_some_iff (m := m) digits hden
  have hnone := nearest?_eq_none_iff digits hden
  rw [hcast] at hsome hnone
  unfold ofDecimal
  cases hnearest : nearest? digits (Nat.pow 10 places) with
  | none =>
    have hle := hnone.1 hnearest
    cases x with
    | nan => simp [ofRounded, IsNearest]
    | infinite sign =>
      simp only [ofRounded, IsNearest, infinite.injEq, and_iff_left hle]
      exact eq_comm
    | finite sign m =>
      simp only [ofRounded, IsNearest, reduceCtorEq, false_iff]
      exact fun h => absurd h.2.2 (not_lt.2 hle)
  | some n =>
    obtain ⟨hn, hlt⟩ := (hsome n).1 hnearest
    cases x with
    | nan => simp [ofRounded, IsNearest]
    | infinite sign =>
      simp only [ofRounded, IsNearest, reduceCtorEq, false_iff]
      exact fun h => absurd hlt (not_lt.2 h.2)
    | finite sign m =>
      have hiff : m.IsNearest (digits / 10 ^ places) ↔ n = m := by
        rw [← and_iff_left hlt (a := m.IsNearest _), ← hsome m, hnearest, Option.some.injEq]
      simp only [ofRounded, IsNearest, finite.injEq, hiff, and_iff_left hlt]
      exact and_congr_left' eq_comm

end Binary64

end TemplateStyles
