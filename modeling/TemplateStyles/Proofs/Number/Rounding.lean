import Mathlib.Tactic.Linarith
import Mathlib.Tactic.Ring
import TemplateStyles.Number.Layout
/-!
# Rounding to doubles

Every fraction in the interval of a double is rounded to this double (`nearest?_of_owns`): a
quotient is rounded to the whole number that is within half a divisor of it (`roundDiv_eq`), and
the interval decides the scale that is rounded at (`log2_sub_eq`).
-/
namespace TemplateStyles.Magnitude

/-! ## Quotients -/

/-- A quotient is rounded to the number that is within half a divisor of it, to an even one also if
it is at that distance. -/
theorem roundDiv_eq {n d q : Nat} (hd : 0 < d) (hlow : 2 * q * d ≤ 2 * n + d)
    (hhigh : 2 * n ≤ (2 * q + 1) * d)
    (hodd : q % 2 = 1 → 2 * q * d < 2 * n + d ∧ 2 * n < (2 * q + 1) * d) : roundDiv n d = q := by
  have hdiv : d * (n / d) + n % d = n := Nat.div_add_mod n d
  have hrest : n % d < d := Nat.mod_lt n hd
  have hle : ∀ {a b : Nat}, d * a < d * b + d → a ≤ b := by
    intro a b h
    by_contra hlt
    have : d * (b + 1) ≤ d * a := Nat.mul_le_mul_left d (by omega)
    rw [Nat.mul_add, Nat.mul_one] at this
    omega
  have hq : 2 * q * d = 2 * (d * q) := by ring
  have hq' : (2 * q + 1) * d = 2 * (d * q) + d := by ring
  rw [hq] at hlow
  rw [hq'] at hhigh
  rw [hq, hq'] at hodd
  have hupper : q ≤ n / d + 1 := hle (by rw [Nat.mul_add, Nat.mul_one]; omega)
  have hlower : n / d ≤ q := hle (by omega)
  have hcases : q = n / d ∨ q = n / d + 1 := by omega
  unfold roundDiv
  dsimp only
  split
  · rename_i hbelow
    rcases hcases with h | h
    · exact h.symm
    · rw [h, Nat.mul_add, Nat.mul_one] at hlow hodd
      omega
  · rename_i habove
    rcases hcases with h | h
    · rw [h] at hhigh hodd
      omega
    · exact h.symm

/-- The scale at which a number of 53 bits is left. -/
theorem log2_sub_eq {n k : Nat} (hhigh : n < 2 ^ (53 + k)) (hlow : k = 0 ∨ 2 ^ (52 + k) ≤ n) :
    Nat.log2 n - 52 = k := by
  by_cases hn : n = 0
  · subst hn
    have hk : k = 0 := by
      rcases hlow with h | h
      · exact h
      · exact absurd h (Nat.not_le_of_lt (Nat.two_pow_pos _))
    simp [hk]
  · have hupper : Nat.log2 n < 53 + k := (Nat.log2_lt hn).2 hhigh
    rcases hlow with rfl | h
    · omega
    · have hlower : 52 + k ≤ Nat.log2 n := (Nat.le_log2 hn).2 h
      omega

/-! ## The interval of a double -/

/-- The fraction `num / den`, over `quarter`, rounds to `m`. -/
structure Owns (m : Magnitude) (num den : Nat) : Prop where
  pos : 0 < den
  low : m.lowerEnd * den ≤ num
  high : num ≤ m.upperEnd * den
  odd : m.mantissa % 2 = 1 → m.lowerEnd * den < num ∧ num < m.upperEnd * den

theorem owns_iff {m : Magnitude} {num den : Nat} (hden : 0 < den) :
    m.owns num den = true ↔ m.Owns num den := by
  unfold owns
  split
  · rename_i heven
    simp only [Bool.and_eq_true, decide_eq_true_eq]
    exact ⟨fun h => ⟨hden, h.1, h.2, by omega⟩, fun h => ⟨h.low, h.high⟩⟩
  · rename_i hodd
    simp only [Bool.and_eq_true, decide_eq_true_eq]
    exact ⟨fun h => ⟨hden, h.1.le, h.2.le, fun _ => h⟩, fun h => h.odd (by omega)⟩

/-- Only the quotient matters. -/
theorem Owns.congr {m : Magnitude} {num den num' den' : Nat} (h : m.Owns num den)
    (hden : 0 < den') (heq : num * den' = num' * den) : m.Owns num' den' := by
  have hscale : ∀ e, e * den' * den = e * den * den' := fun e => by ring
  have hle : ∀ e, e * den ≤ num → e * den' ≤ num' := fun e he =>
    Nat.le_of_mul_le_mul_right (by rw [hscale, ← heq]; exact Nat.mul_le_mul_right _ he) h.pos
  have hge : ∀ e, num ≤ e * den → num' ≤ e * den' := fun e he =>
    Nat.le_of_mul_le_mul_right (by rw [hscale, ← heq]; exact Nat.mul_le_mul_right _ he) h.pos
  have hlt : ∀ e, e * den < num → e * den' < num' := fun e he =>
    Nat.lt_of_mul_lt_mul_right (a := den)
      (by rw [hscale, ← heq]; exact Nat.mul_lt_mul_of_pos_right he hden)
  have hgt : ∀ e, num < e * den → num' < e * den' := fun e he =>
    Nat.lt_of_mul_lt_mul_right (a := den)
      (by rw [hscale, ← heq]; exact Nat.mul_lt_mul_of_pos_right he hden)
  exact ⟨hden, hle _ h.low, hge _ h.high, fun hodd => ⟨hlt _ (h.odd hodd).1, hgt _ (h.odd hodd).2⟩⟩

/-- How far below a double its interval reaches, in quarters of its last place. -/
def reach (m : Magnitude) : Nat := if m.mantissa = 0x10000000000000 ∧ m.scale ≠ 0 then 1 else 2

theorem reach_pos (m : Magnitude) : 0 < m.reach := by unfold reach; split <;> omega

theorem reach_le (m : Magnitude) : m.reach ≤ 2 := by unfold reach; split <;> omega

theorem lowerEnd_mul (m : Magnitude) (den : Nat) :
    m.lowerEnd * den = (4 * m.mantissa - m.reach) * (den * Nat.pow 2 m.scale) := by
  have h : m.lowerEnd = (4 * m.mantissa - m.reach) * Nat.pow 2 m.scale := by
    unfold lowerEnd reach
    split <;> rfl
  rw [h]
  ring

theorem upperEnd_mul (m : Magnitude) (den : Nat) :
    m.upperEnd * den = (4 * m.mantissa + 2) * (den * Nat.pow 2 m.scale) := by
  rw [upperEnd]
  ring

/-- The last place of a double is two of the next lower scale. -/
theorem unit_of_succ {m : Magnitude} {k : Nat} (hk : m.scale = k + 1) (den : Nat) :
    den * Nat.pow 2 m.scale = 2 * (den * Nat.pow 2 k) := by
  rw [hk, Nat.pow_eq, Nat.pow_eq, Nat.pow_succ]
  ring

/-- A double is in its own interval. -/
theorem owns_numerator (m : Magnitude) {den : Nat} (hden : 0 < den) :
    m.Owns (4 * m.numerator * den) den := by
  have hpos : 0 < den * Nat.pow 2 m.scale := Nat.mul_pos hden (Nat.two_pow_pos _)
  have hvalue : 4 * m.numerator * den = 4 * m.mantissa * (den * Nat.pow 2 m.scale) := by
    rw [numerator]
    ring
  have hreach := m.reach_pos
  refine ⟨hden, ?_, ?_, fun hodd => ⟨?_, ?_⟩⟩
  · rw [hvalue, lowerEnd_mul]
    exact Nat.mul_le_mul_right _ (by omega)
  · rw [hvalue, upperEnd_mul]
    exact Nat.mul_le_mul_right _ (by omega)
  · rw [hvalue, lowerEnd_mul]
    exact Nat.mul_lt_mul_of_pos_right (by omega) hpos
  · rw [hvalue, upperEnd_mul]
    exact Nat.mul_lt_mul_of_pos_right (by omega) hpos

/-! ## Rounding -/

theorem ofParts?_eq (m : Magnitude) : ofParts? m.mantissa m.scale = some m := by
  rw [ofParts?, dif_pos ⟨m.mantissa_lt, m.scale_le, m.canonical⟩]

variable {m : Magnitude} {num den : Nat}

/-- The interval, with the last place of the double as unit. -/
theorem Owns.bounds (h : m.Owns (num * quarter) den) {unit value : Nat}
    (hunit : unit = den * Nat.pow 2 m.scale) (hvalue : value = num * denominator) :
    4 * (m.mantissa * unit) ≤ 4 * value + m.reach * unit ∧
      2 * value ≤ 2 * (m.mantissa * unit) + unit ∧
      (m.mantissa % 2 = 1 →
        2 * (m.mantissa * unit) < 2 * value + unit ∧
        2 * value < 2 * (m.mantissa * unit) + unit) := by
  have hquarter : num * quarter = 4 * value := by
    rw [quarter, hvalue]
    ring
  obtain ⟨-, hlow, hhigh, hodd⟩ := h
  rw [hquarter, lowerEnd_mul, ← hunit] at hlow
  rw [hquarter, upperEnd_mul, ← hunit] at hhigh
  rw [hquarter, lowerEnd_mul, upperEnd_mul, ← hunit] at hodd
  have hupper : (4 * m.mantissa + 2) * unit = 4 * (m.mantissa * unit) + 2 * unit := by ring
  have hlower : 4 * (m.mantissa * unit) ≤
      (4 * m.mantissa - m.reach) * unit + m.reach * unit := by
    rw [← Nat.add_mul, ← Nat.mul_assoc]
    exact Nat.mul_le_mul_right _ (by omega)
  have hreach : m.reach * unit ≤ 2 * unit := Nat.mul_le_mul_right _ m.reach_le
  rw [hupper] at hhigh hodd
  refine ⟨by omega, by omega, fun h => ?_⟩
  have := hodd h
  omega

/-- At the scale of the double, the fraction is rounded to its mantissa. -/
theorem nearest?_of_scale (h : m.Owns (num * quarter) den)
    (hscale : Nat.log2 (num * denominator / den) - 52 = m.scale) :
    nearest? num den = some m := by
  have hround : roundDiv (num * denominator) (den * Nat.pow 2 m.scale) = m.mantissa := by
    obtain ⟨hlow, hhigh, hodd⟩ := h.bounds rfl rfl
    have hreach := Nat.mul_le_mul_right (den * Nat.pow 2 m.scale) m.reach_le
    have htwice : (2 * m.mantissa + 1) * (den * Nat.pow 2 m.scale) =
        2 * (m.mantissa * (den * Nat.pow 2 m.scale)) + den * Nat.pow 2 m.scale := by ring
    refine roundDiv_eq (Nat.mul_pos h.pos (Nat.two_pow_pos _)) ?_ ?_ ?_
    · rw [Nat.mul_assoc]
      omega
    · rw [htwice]
      exact hhigh
    · rw [htwice, Nat.mul_assoc]
      exact hodd
  have hmantissa : m.mantissa ≠ 0x20000000000000 := m.mantissa_lt.ne
  simp only [nearest?, hscale, hround, if_neg hmantissa, ofParts?_eq]

/-- Below a power of two the fraction is rounded at the next lower scale, and up to that power. -/
theorem nearest?_of_lower_scale (h : m.Owns (num * quarter) den) {k : Nat} (hk : m.scale = k + 1)
    (hmantissa : m.mantissa = 0x10000000000000)
    (hbelow : num * denominator < 0x10000000000000 * (den * Nat.pow 2 m.scale))
    (hscale : Nat.log2 (num * denominator / den) - 52 = k) :
    nearest? num den = some m := by
  have hround : roundDiv (num * denominator) (den * Nat.pow 2 k) = 0x20000000000000 := by
    obtain ⟨hlow, -, -⟩ := h.bounds rfl rfl
    have hreach : m.reach = 1 := if_pos ⟨hmantissa, by omega⟩
    rw [hmantissa, hreach, unit_of_succ hk] at hlow
    rw [unit_of_succ hk] at hbelow
    refine roundDiv_eq (Nat.mul_pos h.pos (Nat.two_pow_pos _)) ?_ ?_ ?_ <;> omega
  have hparts : ofParts? 0x10000000000000 (k + 1) = some m := by
    rw [← hmantissa, ← hk, ofParts?_eq]
  simp only [nearest?, hscale, hround, if_true, hparts]

/-- **A fraction in the interval of a double is rounded to it.** -/
theorem nearest?_of_owns (h : m.Owns (num * quarter) den) : nearest? num den = some m := by
  obtain ⟨hlow, hhigh, -⟩ := h.bounds rfl rfl
  have hmax : m.mantissa ≤ 0x1FFFFFFFFFFFFF := Nat.le_of_lt_succ m.mantissa_lt
  have hunit : 0 < den * Nat.pow 2 m.scale := Nat.mul_pos h.pos (Nat.two_pow_pos _)
  have hshift : ∀ a k, 2 ^ (a + k) * den = 2 ^ a * (den * Nat.pow 2 k) := fun a k => by
    rw [Nat.pow_eq]
    ring
  by_cases hbelow : m.mantissa = 0x10000000000000 ∧ m.scale ≠ 0 ∧
      num * denominator < 0x10000000000000 * (den * Nat.pow 2 m.scale)
  · obtain ⟨hmantissa, hscale, hbelow⟩ := hbelow
    obtain ⟨k, hk⟩ := Nat.exists_eq_succ_of_ne_zero hscale
    have hreach : m.reach = 1 := if_pos ⟨hmantissa, hscale⟩
    have hhalf := unit_of_succ hk den
    rw [hmantissa, hreach, hhalf] at hlow
    refine nearest?_of_lower_scale h hk hmantissa hbelow (log2_sub_eq ?_ (.inr ?_))
    · rw [Nat.div_lt_iff_lt_mul h.pos, hshift]
      omega
    · rw [Nat.le_div_iff_mul_le h.pos, hshift]
      omega
  · have hle := Nat.mul_le_mul_right (den * Nat.pow 2 m.scale) hmax
    refine nearest?_of_scale h (log2_sub_eq ?_ ?_)
    · rw [Nat.div_lt_iff_lt_mul h.pos, hshift]
      omega
    · by_cases hscale : m.scale = 0
      · exact .inl hscale
      · refine .inr ?_
        rw [Nat.le_div_iff_mul_le h.pos, hshift]
        rcases Nat.eq_or_lt_of_le (m.canonical.resolve_left hscale) with heq | hlt
        · have habove : ¬ num * denominator < 0x10000000000000 * (den * Nat.pow 2 m.scale) :=
            fun hlt => hbelow ⟨heq.symm, hscale, hlt⟩
          omega
        · have hge := Nat.mul_le_mul_right (den * Nat.pow 2 m.scale) (Nat.succ_le_of_lt hlt)
          have hreach := Nat.mul_le_mul_right (den * Nat.pow 2 m.scale) m.reach_le
          omega

end TemplateStyles.Magnitude
