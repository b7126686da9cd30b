import TemplateStyles.Proofs.Number.Reading
import TemplateStyles.Proofs.Number.Rounding
import TemplateStyles.Proofs.Text.MarkerScan
/-!
# The text of a double is read back

The shortest decimal of a double lies in the interval of this double (`owns_shortest`), and so does
what its positional notation is read as (`exists_positional`). Main result `readNumber?_text`: the
text of every finite double is read as the same number. So the text tells numbers apart
(`text_eq_iff`).
-/
namespace TemplateStyles

/-! ## Values of digits -/

namespace Text.Digit

theorem valueFrom_append (n : Nat) (ds es : List Char) :
    valueFrom n (ds ++ es) = valueFrom (valueFrom n ds) es := List.foldl_append

theorem valueFrom_zeros (n z : Nat) : valueFrom n (List.replicate z '0') = n * 10 ^ z := by
  induction z generalizing n with
  | zero => simp [valueFrom]
  | succ z ih =>
    have hstep : valueFrom n (List.replicate (z + 1) '0') =
        valueFrom (10 * n) (List.replicate z '0') := rfl
    rw [hstep, ih, Nat.pow_succ]
    ring

theorem isAscii_of_mem_zeros {z : Nat} {c : Char} (h : c ∈ List.replicate z '0') :
    isAscii c = true := by
  rw [List.eq_of_mem_replicate h]
  decide

theorem isNumeral_repr (n : Nat) : IsNumeral (Nat.repr n).toList where
  ne_nil := by rw [Nat.toList_repr]; exact Nat.toDigits_ne_nil
  isAscii := fun _ hc => isAscii_of_mem_repr hc

end Text.Digit

open Text.Digit StyleValue

/-! ## Positional notation -/

/-- Positional notation writes the digits, with some zeros before or behind them, and perhaps a
point. -/
theorem exists_positional {ds : List Char} (h : IsNumeral ds) (keepsPoint : Bool)
    (exponent : Int) :
    ∃ (whole : List Char) (fraction : Option (List Char)) (t : Nat),
      positional keepsPoint ds exponent = whole ++ fractionChars fraction ∧
      IsUnsigned whole fraction [] ∧
      valueFrom 0 (whole ++ fraction.getD []) = valueFrom 0 ds * 10 ^ t ∧
      (t : Int) - (fraction.getD []).length = exponent + 1 - ds.length ∧
      (whole = ['0'] ∨ whole.head? = ds.head?) ∧
      (keepsPoint = true → fraction.isSome = true) := by
  unfold positional
  split
  · rename_i hneg
    refine ⟨['0'], some (List.replicate (-exponent - 1).toNat '0' ++ ds), 0, rfl, ?_, ?_, ?_,
      .inl rfl, fun _ => rfl⟩
    · refine ⟨⟨by simp, by simp [isAscii]⟩, fun f hf => ?_, .inl rfl⟩
      rw [← Option.some.inj hf]
      refine ⟨by simp [h.ne_nil], fun c hc => ?_⟩
      exact (List.mem_append.1 hc).elim isAscii_of_mem_zeros (h.isAscii c)
    · have hzero : valueFrom 0 ['0'] = 0 := by decide
      rw [Option.getD_some, valueFrom_append, hzero, valueFrom_append, valueFrom_zeros,
        Nat.zero_mul, Nat.pow_zero, Nat.mul_one]
    · simp only [Option.getD_some, List.length_append, List.length_replicate]
      omega
  · rename_i hnonneg
    dsimp only
    split
    · rename_i hlong
      generalize hzeros : exponent.toNat + 1 - ds.length = z
      have hwhole : IsNumeral (ds ++ List.replicate z '0') :=
        ⟨by simp [h.ne_nil],
          fun c hc => (List.mem_append.1 hc).elim (h.isAscii c) isAscii_of_mem_zeros⟩
      have hhead : (ds ++ List.replicate z '0').head? = ds.head? :=
        List.head?_append_of_ne_nil _ h.ne_nil
      cases keepsPoint with
      | false =>
        refine ⟨ds ++ List.replicate z '0', none, z, by simp [fractionChars],
          ⟨hwhole, by simp, .inl rfl⟩, ?_, ?_, .inr hhead, by simp⟩
        · rw [Option.getD_none, List.append_nil, valueFrom_append, valueFrom_zeros]
        · simp only [Option.getD_none, List.length_nil]
          omega
      | true =>
        refine ⟨ds ++ List.replicate z '0', some (List.replicate 1 '0'), z + 1, rfl,
          ⟨hwhole, fun f hf => ?_, .inl rfl⟩, ?_, ?_, .inr hhead, fun _ => rfl⟩
        · rw [← Option.some.inj hf]
          exact ⟨by simp, fun c hc => isAscii_of_mem_zeros hc⟩
        · rw [Option.getD_some, valueFrom_append, valueFrom_append, valueFrom_zeros,
            valueFrom_zeros, Nat.mul_assoc, ← Nat.pow_add]
        · simp only [Option.getD_some, List.length_replicate]
          omega
    · rename_i hshort
      refine ⟨ds.take (exponent.toNat + 1), some (ds.drop (exponent.toNat + 1)), 0, rfl, ?_, ?_,
        ?_, .inr (by simp [List.head?_take]), fun _ => rfl⟩
      · refine ⟨⟨?_, fun c hc => h.isAscii c (List.mem_of_mem_take hc)⟩, fun f hf => ?_, .inl rfl⟩
        · simp [h.ne_nil]
        · rw [← Option.some.inj hf]
          refine ⟨?_, fun c hc => h.isAscii c (List.mem_of_mem_drop hc)⟩
          rw [ne_eq, List.drop_eq_nil_iff]
          omega
      · rw [Option.getD_some, List.take_append_drop, Nat.pow_zero, Nat.mul_one]
      · simp only [Option.getD_some, List.length_drop]
        omega

/-- No number but zero is written with a zero in front. -/
theorem head?_digitsOf_ne {n : Nat} (h : n ≠ 0) : (digitsOf n).head? ≠ some '0' := by
  induction n using Nat.strongRecOn with
  | ind n ih =>
    rw [digitsOf, Nat.toDigits_eq_if (by decide)]
    split
    · rename_i hlt
      have hdigits : ∀ d < 10, d ≠ 0 → [Nat.digitChar d].head? ≠ some '0' := by decide
      exact hdigits n hlt h
    · rw [List.head?_append_of_ne_nil _ Nat.toDigits_ne_nil]
      exact ih (n / 10) (by omega) (by omega)

theorem exists_eq_dropTrailingZeros (ds : List Char) :
    ∃ z, ds = dropTrailingZeros ds ++ List.replicate z '0' := by
  refine ⟨(ds.reverse.takeWhile (· == '0')).length, ?_⟩
  have hzeros : ds.reverse.takeWhile (· == '0') =
      List.replicate (ds.reverse.takeWhile (· == '0')).length '0' := by
    refine List.eq_replicate_of_mem fun c hc => ?_
    simpa using List.all_eq_true.1 (List.all_takeWhile ..) c hc
  have hsplit := congrArg List.reverse
    (List.takeWhile_append_dropWhile (p := (· == '0')) (l := ds.reverse))
  rw [List.reverse_append, List.reverse_reverse, hzeros, List.reverse_replicate] at hsplit
  rw [dropTrailingZeros]
  exact hsplit.symm

/-! ## Shortest decimals -/

namespace Magnitude

/-- The decimal lies in the interval of `m`. -/
def OwnsDecimal (m : Magnitude) (d : Decimal) : Prop :=
  m.Owns (d.digits * 10 ^ d.exponent.toNat * quarter) (10 ^ (-d.exponent).toNat)

theorem owns_of_onGrid? {tie : Tie} {m : Magnitude} {exponent : Int} {d : Decimal}
    (h : m.onGrid? tie exponent = some d) : m.OwnsDecimal d := by
  have hpos : 0 < Nat.pow 10 (-exponent).toNat := Nat.pow_pos (by decide)
  have hstep : ∀ n, m.owns (n * (quarter * Nat.pow 10 exponent.toNat))
      (Nat.pow 10 (-exponent).toNat) = true → m.OwnsDecimal ⟨n, exponent⟩ := by
    intro n hn
    have hvalue : n * (quarter * Nat.pow 10 exponent.toNat) =
        n * 10 ^ exponent.toNat * quarter := by
      rw [Nat.pow_eq]
      ring
    rw [owns_iff hpos, hvalue] at hn
    exact hn
  unfold onGrid? at h
  extract_lets step den value below rest lowOk highOk takeLow at h
  split at h
  · rename_i hlow
    rw [← Option.some.inj h]
    exact hstep _ (Bool.and_eq_true_iff.1 hlow).1
  · split at h
    · rename_i hhigh
      rw [← Option.some.inj h]
      exact hstep _ hhigh
    · simp at h

/-- The number of places that the exact decimals of all doubles have. -/
theorem exists_places : ∃ (k : Nat) (exponent : Int), denominator = Nat.pow 2 k ∧ exponent = -k ∧
    ∀ m : Magnitude, m.exact = ⟨m.numerator * Nat.pow 5 k, exponent⟩ := by
  unfold denominator exact
  exact ⟨_, -1074, Eq.refl _, rfl, fun _ => Eq.refl _⟩

theorem denominator_pos : 0 < denominator := by
  obtain ⟨k, -, hk, -, -⟩ := exists_places
  rw [hk]
  exact Nat.two_pow_pos k

theorem owns_exact (m : Magnitude) : m.OwnsDecimal m.exact := by
  obtain ⟨k, _, hk, rfl, hexact⟩ := exists_places
  have hten : 10 ^ k = denominator * Nat.pow 5 k := by
    rw [hk, Nat.pow_eq, Nat.pow_eq, ← Nat.mul_pow]
  have hvalue : m.numerator * Nat.pow 5 k * 10 ^ 0 * quarter =
      4 * m.numerator * (denominator * Nat.pow 5 k) := by
    rw [quarter]
    ring
  have hpos : 0 < denominator * Nat.pow 5 k := by
    rw [← hten]
    exact Nat.pow_pos (by decide)
  rw [hexact, OwnsDecimal, Int.neg_neg, Int.toNat_natCast, Int.toNat_neg_natCast, hten, hvalue]
  exact m.owns_numerator hpos

theorem owns_searchGrids (tie : Tie) (m : Magnitude) (steps : Nat) (exponent : Int) :
    m.OwnsDecimal (m.searchGrids tie steps exponent) := by
  induction steps generalizing exponent with
  | zero => exact m.owns_exact
  | succ steps ih =>
    rw [searchGrids]
    cases h : m.onGrid? tie exponent with
    | none => exact ih _
    | some d => exact owns_of_onGrid? h

/-- **The shortest decimal of a double lies in its interval.** -/
theorem owns_shortest (tie : Tie) (m : Magnitude) : m.OwnsDecimal (m.shortest tie) := by
  unfold shortest
  split
  · rename_i hzero
    have hnumerator : m.numerator = 0 := by rw [numerator, hzero, Nat.zero_mul]
    have hown := m.owns_numerator Nat.one_pos
    rw [hnumerator] at hown
    rw [OwnsDecimal, Nat.zero_mul, Nat.zero_mul]
    exact hown
  · exact m.owns_searchGrids tie _ _

/-- Digits without zeros at both ends that lie in the interval of `m`, if the first one stands for
`10 ^ exponent`. -/
structure Significant (m : Magnitude) (ds : List Char) (exponent : Int) : Prop where
  numeral : IsNumeral ds
  lead : ds.head? ≠ some '0'
  owns : ∀ t places : Nat, (t : Int) - places = exponent + 1 - ds.length →
    m.Owns (valueFrom 0 ds * 10 ^ t * quarter) (10 ^ places)

/-- The digits of the shortest decimal, as they are laid out. -/
theorem significant_shortest (tie : Tie) (m : Magnitude) (hdigits : (m.shortest tie).digits ≠ 0) :
    m.Significant (dropTrailingZeros (digitsOf (m.shortest tie).digits))
      ((m.shortest tie).exponent + (digitsOf (m.shortest tie).digits).length - 1) := by
  have hdecimal := m.owns_shortest tie
  rw [OwnsDecimal] at hdecimal
  generalize m.shortest tie = d at *
  have hrepr : digitsOf d.digits = (Nat.repr d.digits).toList := (Nat.toList_repr ..).symm
  have hall : IsNumeral (digitsOf d.digits) := hrepr ▸ isNumeral_repr _
  have hvalue : valueFrom 0 (digitsOf d.digits) = d.digits := hrepr ▸ valueFrom_repr _
  obtain ⟨z, hz⟩ := exists_eq_dropTrailingZeros (digitsOf d.digits)
  have hlead := head?_digitsOf_ne hdigits
  generalize dropTrailingZeros (digitsOf d.digits) = ds at hz
  have hvalue' : d.digits = valueFrom 0 ds * 10 ^ z := by
    rw [← hvalue, hz, valueFrom_append, valueFrom_zeros]
  have hne : ds ≠ [] := by
    intro hnil
    rw [hnil] at hvalue'
    exact hdigits (by rw [hvalue', valueFrom, List.foldl_nil, Nat.zero_mul])
  refine ⟨⟨hne, fun c hc => hall.isAscii c ?_⟩, ?_, ?_⟩
  · rw [hz]
    exact List.mem_append_left _ hc
  · rwa [hz, List.head?_append_of_ne_nil ds hne] at hlead
  · intro t places hplaces
    refine hdecimal.congr (Nat.pow_pos (by decide)) ?_
    have hlength : (digitsOf d.digits).length = ds.length + z := by
      rw [hz, List.length_append, List.length_replicate]
    have hexponent : z + d.exponent.toNat + places = t + (-d.exponent).toNat := by omega
    calc d.digits * 10 ^ d.exponent.toNat * quarter * 10 ^ places
        = valueFrom 0 ds * quarter * 10 ^ (z + d.exponent.toNat + places) := by
          rw [hvalue', Nat.pow_add, Nat.pow_add]
          ring
      _ = valueFrom 0 ds * 10 ^ t * quarter * 10 ^ (-d.exponent).toNat := by
          rw [hexponent, Nat.pow_add]
          ring

theorem owns_zero {tie : Tie} {m : Magnitude} (h : (m.shortest tie).digits = 0) {places : Nat} :
    m.Owns (0 * quarter) (10 ^ places) := by
  refine (m.owns_shortest tie).congr (Nat.pow_pos (by decide)) ?_
  rw [h]
  simp

end Magnitude

/-! ## Reading the text of a double -/

theorem Binary64.ofDecimal_of_owns {m : Magnitude} {digits places : Nat}
    (h : m.Owns (digits * Magnitude.quarter) (10 ^ places)) (negative : Bool) :
    ofDecimal negative digits places = .finite negative m := by
  rw [ofDecimal, Nat.pow_eq, Magnitude.nearest?_of_owns h]
  rfl

namespace Magnitude

/-- The digits of a magnitude in plain notation are read as this magnitude. -/
theorem exists_layout (m : Magnitude) : ∃ whole fraction,
    m.layout .plain = whole ++ fractionChars fraction ∧ IsUnsigned whole fraction [] ∧
      ∀ negative, Binary64.ofDecimal negative (valueFrom 0 (whole ++ fraction.getD []))
        (fraction.getD []).length = .finite negative m := by
  unfold layout
  extract_lets d all exponent
  split
  · rename_i hzero
    refine ⟨['0'], none, rfl, ⟨⟨by simp, by simp [isAscii]⟩, by simp, .inl rfl⟩, fun negative => ?_⟩
    have hvalue : valueFrom 0 (['0'] ++ Option.getD none []) = 0 := by decide
    rw [hvalue]
    exact Binary64.ofDecimal_of_owns (owns_zero hzero) negative
  · rename_i hdigits
    have hsignificant : m.Significant (dropTrailingZeros all) exponent :=
      m.significant_shortest _ hdigits
    obtain ⟨whole, fraction, t, htext, hparts, hvalue, hplaces, -, -⟩ :=
      exists_positional hsignificant.numeral false exponent
    refine ⟨whole, fraction, ?_, hparts, fun negative => ?_⟩
    · have hpositional : NumberLayout.plain.isPositional exponent = true := rfl
      rw [if_pos hpositional]
      exact htext
    · rw [hvalue]
      exact Binary64.ofDecimal_of_owns (hsignificant.owns _ _ hplaces) negative

end Magnitude

namespace Binary64

/-- The text of a whole number: a zero has no sign. -/
theorem toList_toString (negative : Bool) (k : Nat) :
    ∃ sign, (toString (if negative then -(k : Int) else k)).toList =
      signChars sign ++ (Nat.repr k).toList ∧ (sign = negative ∨ k = 0) := by
  cases negative with
  | false => exact ⟨false, rfl, .inl rfl⟩
  | true =>
    cases k with
    | zero => exact ⟨false, rfl, .inr rfl⟩
    | succ k =>
      refine ⟨true, ?_, .inl rfl⟩
      have htext : toString (-((k + 1 : Nat) : Int)) = "-" ++ Nat.repr (k + 1) := rfl
      rw [if_pos rfl, htext, String.toList_append]
      rfl

theorem sameNumber_finite {s t : Bool} {m : Magnitude} (h : s = t ∨ m.mantissa = 0) :
    (finite s m).sameNumber (finite t m) = true := by
  rcases h with h | h <;> simp [sameNumber, h]

theorem text_of_whole {m : Magnitude} {k : Nat} (h : m.numerator = k * Magnitude.denominator)
    (hk : k < 0x20000000000000) (negative : Bool) :
    (finite negative m).text = toString (if negative then -(k : Int) else k) := by
  have hmod : m.numerator % Magnitude.denominator = 0 := by rw [h, Nat.mul_mod_left]
  have hdiv : m.numerator / Magnitude.denominator = k := by
    rw [h, Nat.mul_div_cancel k Magnitude.denominator_pos]
  have hsmall : (finite negative m).toSmallInt? = some (if negative then -(k : Int) else k) := by
    rw [toSmallInt?, if_pos ⟨hmod, by rwa [hdiv]⟩, ← Int.natCast_ediv, hdiv]
  rw [text, hsmall]

theorem text_of_not_whole {m : Magnitude} (h : ¬ (m.numerator % Magnitude.denominator = 0 ∧
    m.numerator / Magnitude.denominator < 0x20000000000000)) (negative : Bool) :
    (finite negative m).text = (finite negative m).layout .plain := by
  have hsmall : (finite negative m).toSmallInt? = none := by rw [toSmallInt?, if_neg h]
  rw [text, hsmall]

/-- **The text of a finite double is read as the same number.** -/
theorem readNumber?_text {x : Binary64} (h : x.isFinite = true) :
    ∃ y, readNumber? x.text.toList = some y ∧ y.sameNumber x = true := by
  cases x with
  | nan => simp [isFinite] at h
  | infinite negative => simp [isFinite] at h
  | finite negative m =>
    by_cases hwhole : m.numerator % Magnitude.denominator = 0 ∧
        m.numerator / Magnitude.denominator < 0x20000000000000
    · -- a whole number is written without point, and zero without sign
      have hnumerator := (Nat.div_mul_cancel (Nat.dvd_of_mod_eq_zero hwhole.1)).symm
      rw [text_of_whole hnumerator hwhole.2]
      generalize m.numerator / Magnitude.denominator = k at hnumerator
      obtain ⟨sign, htext, hsign⟩ := toList_toString negative k
      have hparts : IsUnsigned (Nat.repr k).toList none [] :=
        ⟨isNumeral_repr k, by simp, .inl rfl⟩
      have hown : m.Owns (k * Magnitude.quarter) (10 ^ 0) := by
        have hvalue : k * Magnitude.quarter = 4 * m.numerator * 1 := by
          rw [hnumerator, Magnitude.quarter]
          ring
        rw [hvalue]
        exact m.owns_numerator Nat.one_pos
      refine ⟨.finite sign m, readNumber?_eq_some_iff.2 ⟨sign, _, none, [], hparts, ?_, ?_⟩, ?_⟩
      · rw [htext, fractionChars, List.append_nil, List.append_nil]
      · rw [Option.getD_none, List.append_nil, valueFrom_repr]
        exact (ofDecimal_of_owns hown sign).symm
      · refine sameNumber_finite (hsign.imp_right fun hk => ?_)
        rw [hk, Nat.zero_mul, Magnitude.numerator, Nat.mul_eq_zero] at hnumerator
        exact hnumerator.resolve_right (Nat.two_pow_pos _).ne'
    · obtain ⟨whole, fraction, htext, hparts, hread⟩ := m.exists_layout
      rw [text_of_not_whole hwhole]
      refine ⟨_, readNumber?_eq_some_iff.2 ⟨negative, whole, fraction, [], hparts, ?_, rfl⟩, ?_⟩
      · rw [layout, String.toList_ofList, htext, List.append_nil, signChars]
      · rw [hread]
        exact sameNumber_finite (.inl rfl)

/-- Two finite doubles are the same number just if they differ at most in the sign of zero. -/
theorem sameNumber_finite_iff {s t : Bool} {m n : Magnitude} :
    (finite s m).sameNumber (finite t n) = true ↔ m = n ∧ (s = t ∨ m.mantissa = 0) := by
  simp [sameNumber]

/-- **Two finite doubles have one text just if they are the same number.** -/
theorem text_eq_iff {x y : Binary64} (hx : x.isFinite = true) (hy : y.isFinite = true) :
    x.text = y.text ↔ x.sameNumber y = true := by
  constructor
  · intro h
    obtain ⟨v, hv, hvx⟩ := readNumber?_text hx
    obtain ⟨w, hw, hwy⟩ := readNumber?_text hy
    rw [h, hw, Option.some.injEq] at hv
    subst hv
    cases x with
    | finite s m =>
      cases y with
      | finite t n =>
        cases w with
        | finite u k =>
          rw [sameNumber_finite_iff] at hvx hwy ⊢
          obtain ⟨rfl, hs⟩ := hvx
          obtain ⟨rfl, ht⟩ := hwy
          refine ⟨rfl, ?_⟩
          rcases hs with rfl | hzero
          · exact ht
          · exact .inr hzero
        | _ => simp [sameNumber] at hvx
      | _ => simp [isFinite] at hy
    | _ => simp [isFinite] at hx
  · intro h
    cases x with
    | finite s m =>
      cases y with
      | finite t n =>
        obtain ⟨rfl, rfl | hzero⟩ := sameNumber_finite_iff.1 h
        · rfl
        · have hnumerator : m.numerator = 0 * Magnitude.denominator := by
            rw [Magnitude.numerator, hzero, Nat.zero_mul, Nat.zero_mul]
          rw [text_of_whole hnumerator (by decide), text_of_whole hnumerator (by decide)]
          cases s <;> cases t <;> rfl
      | _ => simp [isFinite] at hy
    | _ => simp [isFinite] at hx

end Binary64

end TemplateStyles
