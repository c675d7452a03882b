import DocAnnotations.Proofs.Decimal.Nearest

/-!
# The shortest decimal belongs to its value

For a finite value a decimal is chosen that reads back as the value, with as few digits as possible:
each number of digits is tried until one is found, and if none is, the exact decimal is taken.

How many digits were tried plays no part in what follows.  A decimal that was tried was compared
with the two points halfway to the neighbours of the value (`compareScaled_eq`), so the value covers
it (`covers_of_readsBack`).  The exact decimal is the value itself.  Zeros at the end of the digits
are stripped afterwards, which does not change the number.

**`Dyadic.covers_shortest`**: the value covers the decimal that is chosen for it.
-/

namespace DocAnnotations.Decimal

/-- The rational that digits and a decimal exponent stand for. -/
def decimalValue (d : Nat × Int) : ℚ := d.1 * 10 ^ d.2

/-- The comparison of two scaled numbers, made on natural numbers, is that of the rationals. -/
lemma compareScaled_eq {a n : Nat} {i j : Int} (o : Ordering) :
    compareScaled a i n j = o ↔ compare ((a : ℚ) * 10 ^ i) (n * 2 ^ j) = o := by
  have scale : (0 : ℚ) < twoTo (-j) * tenTo (-i) := by
    exact_mod_cast Nat.mul_pos (twoTo_pos _) (tenTo_pos _)
  have left : ((a * tenTo i * twoTo (-j) : Nat) : ℚ)
      = a * 10 ^ i * (twoTo (-j) * tenTo (-i)) := by
    push_cast [cast_tenTo i]
    ring
  have right : ((n * twoTo j * tenTo (-i) : Nat) : ℚ)
      = n * 2 ^ j * (twoTo (-j) * tenTo (-i)) := by
    push_cast [cast_twoTo j]
    ring
  have less : ∀ {x y : Nat}, x < y ↔ (x : ℚ) < y := Nat.cast_lt.symm
  unfold compareScaled
  cases o with
  | lt => rw [compare_lt_iff_lt, compare_lt_iff_lt, less, left, right, mul_lt_mul_iff_left₀ scale]
  | gt => rw [compare_gt_iff_gt, compare_gt_iff_gt, less, left, right,
      mul_lt_mul_iff_left₀ scale]
  | eq => rw [compare_eq_iff_eq, compare_eq_iff_eq, ← Nat.cast_inj (R := ℚ), left, right,
      mul_left_inj' scale.ne']

namespace Dyadic

variable {x : Dyadic} {digits : Nat} {exponent : Int}

/-- Digits that read back lie between the halfway points. -/
lemma covers_of_readsBack (positive : 0 < x.mantissa) (h : x.readsBack digits exponent = true) :
    x.Covers (decimalValue (digits, exponent)) := by
  have unit : (0 : ℚ) < 2 ^ x.exponent := by positivity
  have quarter : (2 : ℚ) ^ (x.exponent - 2) = 2 ^ x.exponent / 4 := by
    rw [zpow_sub₀ two_ne_zero]
    norm_num
  have low : ((if x.narrowBelow then 4 * x.mantissa - 1 else 4 * x.mantissa - 2 : Nat) : ℚ)
      = 4 * (x.mantissa - if x.narrowBelow then 1 / 4 else 1 / 2) := by
    split_ifs
    · rw [Nat.cast_sub (by omega)]
      push_cast
      ring
    · rw [Nat.cast_sub (by omega)]
      push_cast
      ring
  rw [readsBack] at h
  simp only [Bool.and_eq_true, Bool.or_eq_true, beq_iff_eq, compareScaled_eq, compare_gt_iff_gt,
    compare_lt_iff_lt, compare_eq_iff_eq, quarter, low] at h
  push_cast at h
  obtain ⟨above, below⟩ := h
  rw [decimalValue]
  constructor
  · rw [le_div_iff₀ unit]
    rcases above with above | ⟨-, above⟩ <;> linarith
  · rw [div_le_iff₀ unit]
    rcases below with below | ⟨-, below⟩ <;> linarith
  · intro odd
    rw [lt_div_iff₀ unit, div_lt_iff₀ unit]
    rcases above with above | ⟨even, -⟩
    · rcases below with below | ⟨even, -⟩
      · constructor <;> linarith
      · omega
    · omega

/-- Each pattern covers the number that it stands for. -/
lemma covers_self (x : Dyadic) : x.Covers (x.mantissa * 2 ^ x.exponent) := by
  have unit : (2 : ℚ) ^ x.exponent ≠ 0 := by positivity
  constructor
  · rw [mul_div_cancel_right₀ _ unit]
    split_ifs <;> linarith
  · rw [mul_div_cancel_right₀ _ unit]
    linarith
  · intro _
    rw [mul_div_cancel_right₀ _ unit]
    split_ifs <;> constructor <;> linarith

/-- The exact decimal of a pattern stands for the same number as the pattern. -/
lemma decimalValue_exact (x : Dyadic) : decimalValue x.exact = x.mantissa * 2 ^ x.exponent := by
  unfold exact decimalValue
  split_ifs with negative
  · obtain ⟨n, same⟩ : ∃ n : Nat, x.exponent = -n := ⟨(-x.exponent).toNat, by omega⟩
    simp only [same, neg_neg, Int.toNat_natCast, zpow_neg, zpow_natCast, Nat.pow_eq]
    push_cast
    rw [show (10 : ℚ) = 5 * 2 by norm_num, mul_pow]
    field_simp
  · obtain ⟨n, same⟩ := Int.eq_ofNat_of_zero_le (not_lt.1 negative)
    simp only [same, twoTo, Int.toNat_natCast, zpow_zero, zpow_natCast, Nat.pow_eq]
    push_cast
    ring

/-- A decimal that is found on a grid passes the test that it is read back as the pattern. -/
lemma readsBack_of_onGrid? {tie : Tie} {n : Nat} (h : x.onGrid? tie exponent = some n) :
    x.readsBack n exponent = true := by
  unfold onGrid? at h
  dsimp only at h
  split at h
  · next low high =>
    split at h
    · cases h; exact low
    · cases h; exact high
    · split_ifs at h
      · cases h; exact low
      · cases h; exact high
  · next low _ => cases h; exact low
  · next _ high => cases h; exact high
  · cases h

end Dyadic

/-- Zeros at the end of the digits go into the exponent, and the number stays the same. -/
lemma decimalValue_stripZeros (n : Nat) : ∀ d : Nat × Int,
    decimalValue (stripZeros n d) = decimalValue d := by
  induction n with
  | zero => exact fun d => rfl
  | succ n ih =>
      rintro ⟨digits, exponent⟩
      rw [stripZeros]
      split_ifs with zero
      · obtain ⟨tens, rfl⟩ := Nat.dvd_of_mod_eq_zero zero
        rw [ih, Nat.mul_div_cancel_left _ (by decide), decimalValue, decimalValue,
          zpow_add_one₀ (by norm_num)]
        push_cast
        ring
      · rfl

/-- **A value covers the decimal that is chosen for it.** -/
theorem Dyadic.covers_shortest {x : Dyadic} (positive : 0 < x.mantissa) (tie : Tie) :
    x.Covers (decimalValue (x.shortest tie)) := by
  unfold shortest
  dsimp only
  split
  · next d found =>
    obtain ⟨n, -, there⟩ := List.exists_of_findSome?_eq_some found
    obtain ⟨digits, onGrid, rfl⟩ := Option.map_eq_some_iff.1 there
    rw [decimalValue_stripZeros]
    exact covers_of_readsBack positive (readsBack_of_onGrid? onGrid)
  · rw [decimalValue_exact]
    exact x.covers_self

end DocAnnotations.Decimal
