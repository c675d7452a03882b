import DocAnnotations.Proofs.Decimal.ReadBack

/-!
# Rounding is exact

`nearest_of_covers` says that what a magnitude covers is rounded to it.  This module is about the
other way round.

**Rounding to a magnitude.**  Every quotient is covered by the magnitude that it is rounded to,
unless that is infinity (**`covers_nearest`**): a rounded mantissa that has no room is a power of
two, and is that of the next exponent.

**Neighbours.**  Greater magnitudes stand for greater numbers, and neighbours are a step apart.  So
what covers a rational is as close to it as any finite magnitude (**`closest_of_covers`**).

**Decimals in range.**  **`floatingOfChars_ok_iff`**: a text has a pattern exactly if it is a
decimal that a finite magnitude covers, zero only one without other digits.
-/

namespace DocAnnotations.Decimal

variable {f : BinaryFormat} {num den m : Nat} {v : ℚ}

/-! ## Rounding to a natural -/

/-- A quotient is rounded to a natural that is at most a half away. -/
lemma roundsTo_roundQuotient (positive : 0 < den) :
    RoundsTo ((num : ℚ) / den) (roundQuotient num den) := by
  rw [roundsTo_iff positive]
  have split := Nat.div_add_mod num den
  have small := Nat.mod_lt num positive
  unfold roundQuotient
  dsimp only
  generalize num / den = q at *
  generalize num % den = r at *
  subst split
  have same : 2 * (den * q + r) = 2 * q * den + 2 * r := by ring
  have next : 2 * (q + 1) * den = 2 * q * den + 2 * den := by ring
  rw [same]
  split_ifs
  · omega
  · rw [next]
    omega
  · omega
  · rw [next]
    omega

/-! ## Rounding to a magnitude -/

namespace BinaryFormat

/-- A power of two is even, so a tie may go to it. -/
lemma two_pow_mod_two (wide : 0 < f.fractionBits) : 2 ^ f.fractionBits % 2 = 0 := by
  rw [← Nat.succ_pred_eq_of_pos wide, pow_succ, Nat.mul_mod_left]

/-- A mantissa in its range, with any exponent. -/
lemma covers_wide {steps fraction : Nat} (wide : 0 < f.fractionBits)
    (rounds : RoundsTo (v / 2 ^ (f.minExponent + steps)) (2 ^ f.fractionBits + fraction))
    (low : 0 < steps → (2 : ℚ) ^ f.fractionBits ≤ v / 2 ^ (f.minExponent + steps)) :
    (Dyadic.mk (2 ^ f.fractionBits + fraction) (f.minExponent + steps)
      (fraction == 0 && decide (steps + 1 > 1))).Covers v := by
  cases narrow : (fraction == 0 && decide (steps + 1 > 1)) with
  | false => exact ⟨by simpa using rounds.low, rounds.high, fun odd => by
      simpa using rounds.strict odd⟩
  | true =>
      rw [Bool.and_eq_true, beq_iff_eq, decide_eq_true_eq] at narrow
      obtain ⟨rfl, more⟩ := narrow
      have low := low (by omega)
      refine ⟨?_, rounds.high, fun odd => ?_⟩
      · push_cast
        simp only [if_true]
        linarith
      · dsimp only at odd
        rw [Nat.add_zero, two_pow_mod_two wide] at odd
        cases odd

/-- The power of two that a rounded mantissa is carried to. -/
lemma covers_carry {steps : Nat} (wide : 0 < f.fractionBits)
    (rounds : RoundsTo (v / 2 ^ (f.minExponent + steps)) (2 ^ (f.fractionBits + 1)))
    (high : v / 2 ^ (f.minExponent + steps) < 2 ^ (f.fractionBits + 1)) :
    (Dyadic.mk (2 ^ f.fractionBits + 0) (f.minExponent + (steps + 1 : Nat)) true).Covers v := by
  have halved : v / 2 ^ (f.minExponent + ((steps + 1 : Nat) : Int))
      = v / 2 ^ (f.minExponent + steps) / 2 := by
    rw [div_div, ← zpow_add_one₀ two_ne_zero]
    push_cast
    rw [add_assoc]
  have low := rounds.low
  push_cast at low
  rw [pow_succ] at low high
  refine ⟨?_, ?_, fun odd => ?_⟩
  · rw [halved]
    push_cast
    simp only [if_true]
    linarith
  · rw [halved]
    push_cast
    linarith
  · dsimp only at odd
    rw [Nat.add_zero, two_pow_mod_two wide] at odd
    cases odd

/-- A value is covered by the magnitude of its rounded mantissa. -/
lemma covers_of_roundsTo {steps : Nat} (wide : 0 < f.fractionBits)
    (rounds : RoundsTo (v / 2 ^ (f.minExponent + steps)) m)
    (low : 0 < steps → (2 : ℚ) ^ f.fractionBits ≤ v / 2 ^ (f.minExponent + steps))
    (high : v / 2 ^ (f.minExponent + steps) < 2 ^ (f.fractionBits + 1)) :
    (f.toDyadic (steps * 2 ^ f.fractionBits + m)).Covers v := by
  have most : m ≤ 2 ^ (f.fractionBits + 1) := by
    have less : (m : ℚ) < 2 ^ (f.fractionBits + 1) + 1 := by linarith [rounds.low]
    exact Nat.lt_succ_iff.1 (by exact_mod_cast less)
  have double : 2 ^ (f.fractionBits + 1) = 2 ^ f.fractionBits + 2 ^ f.fractionBits := by
    rw [pow_succ, mul_two]
  rcases Nat.lt_or_ge m (2 ^ f.fractionBits) with least | full
  · have none : steps = 0 := by
      by_contra some
      have low := low (Nat.pos_of_ne_zero some)
      have less : (m : ℚ) + 1 ≤ 2 ^ f.fractionBits := by exact_mod_cast least
      linarith [rounds.high]
    subst none
    rw [Nat.cast_zero, Int.add_zero] at rounds
    rw [Nat.zero_mul, Nat.zero_add, toDyadic_least least]
    exact ⟨by simpa using rounds.low, rounds.high, fun odd => by simpa using rounds.strict odd⟩
  · rcases Nat.lt_or_ge m (2 ^ (f.fractionBits + 1)) with less | all
    · obtain ⟨fraction, rfl⟩ := Nat.exists_eq_add_of_le full
      have small : fraction < 2 ^ f.fractionBits := by omega
      rw [← Nat.add_assoc, ← Nat.succ_mul, toDyadic_wide small]
      exact covers_wide wide rounds low
    · obtain rfl : m = 2 ^ (f.fractionBits + 1) := Nat.le_antisymm most all
      have carried : steps * 2 ^ f.fractionBits + 2 ^ (f.fractionBits + 1)
          = (steps + 1 + 1) * 2 ^ f.fractionBits + 0 := by ring
      rw [carried, toDyadic_wide (Nat.two_pow_pos _)]
      have more : (0 == 0 && decide (steps + 1 + 1 > 1)) = true := by simp
      rw [more]
      exact covers_carry wide rounds high

/-- **Every quotient is covered by the finite magnitude that it is rounded to.** -/
theorem covers_nearest (wide : 0 < f.fractionBits) (top : 0 < num) (bottom : 0 < den)
    (finite : f.nearest num den < f.infinity) :
    (f.toDyadic (f.nearest num den)).Covers (num / den) := by
  obtain ⟨below, above⟩ := ratioLog2_spec top bottom
  obtain ⟨steps, exponent⟩ := Int.eq_ofNat_of_zero_le (Int.sub_nonneg_of_le
    (le_max_right (ratioLog2 num den - f.fractionBits) f.minExponent))
  have exponent : max (ratioLog2 num den - f.fractionBits) f.minExponent
      = f.minExponent + steps := by omega
  have unit : (0 : ℚ) < 2 ^ (f.minExponent + steps) := by positivity
  have high : (num : ℚ) / den / 2 ^ (f.minExponent + steps) < 2 ^ (f.fractionBits + 1) := by
    rw [div_lt_iff₀ unit, ← zpow_natCast, ← zpow_add₀ two_ne_zero]
    refine above.trans_le (zpow_le_zpow_right₀ one_le_two ?_)
    push_cast
    omega
  have low : 0 < steps → (2 : ℚ) ^ f.fractionBits ≤ num / den / 2 ^ (f.minExponent + steps) := by
    intro some
    rw [le_div_iff₀ unit, ← zpow_natCast, ← zpow_add₀ two_ne_zero]
    refine le_trans (zpow_le_zpow_right₀ one_le_two ?_) below
    omega
  have rounds := @roundsTo_roundQuotient (num * twoTo (-(f.minExponent + steps))) _
    (Nat.mul_pos bottom (twoTo_pos (f.minExponent + steps)))
  rw [scaled_quotient bottom] at rounds
  have rounded := nearest_eq top bottom exponent rounds
  rw [add_sub_cancel_left, Int.toNat_natCast, twoTo_natCast] at rounded
  rw [rounded, min_lt_iff, or_iff_left (lt_irrefl _)] at finite
  rw [rounded, min_eq_left finite.le]
  exact covers_of_roundsTo wide rounds low high

/-- Zero covers itself. -/
lemma covers_zero (e : Int) : (f.toDyadic 0).Covers (decimalValue (0, e)) := by
  have value : decimalValue (0, e) = 0 := by simp [decimalValue]
  rw [toDyadic_least (Nat.two_pow_pos _), value]
  exact ⟨by norm_num, by norm_num, fun odd => by cases odd⟩

end BinaryFormat

/-! ## Neighbours -/

/-- The rational that a value is. -/
def Dyadic.rational (x : Dyadic) : ℚ := x.mantissa * 2 ^ x.exponent

namespace BinaryFormat

/-- What follows a magnitude: the next mantissa, or the least one with the next exponent. -/
lemma toDyadic_succ (f : BinaryFormat) (m : Nat) :
    (f.toDyadic (m + 1)).rational = (f.toDyadic m).rational + 2 ^ (f.toDyadic m).exponent ∧
      (2 : ℚ) ^ (f.toDyadic m).exponent = 2 ^ (f.toDyadic (m + 1)).exponent *
        if (f.toDyadic (m + 1)).narrowBelow then 1 / 2 else 1 := by
  have unit : 0 < 2 ^ f.fractionBits := Nat.two_pow_pos _
  rcases Nat.lt_or_ge m (2 ^ f.fractionBits) with least | full
  · rw [toDyadic_least least]
    rcases Nat.lt_or_ge (m + 1) (2 ^ f.fractionBits) with least' | all
    · rw [toDyadic_least least']
      simp [Dyadic.rational, add_mul]
    · have first : m + 1 = (0 + 1) * 2 ^ f.fractionBits + 0 := by omega
      have last : (2 : ℚ) ^ f.fractionBits = m + 1 := by
        have same : 2 ^ f.fractionBits = m + 1 := by omega
        exact_mod_cast same
      rw [first, toDyadic_wide unit]
      simp [Dyadic.rational, last, add_mul]
  · obtain ⟨steps, fraction, small, rfl⟩ := exists_steps full
    rw [toDyadic_wide small]
    rcases Nat.lt_or_ge (fraction + 1) (2 ^ f.fractionBits) with small' | all
    · rw [Nat.add_assoc, toDyadic_wide small']
      simp [Dyadic.rational, add_mul]
      ring
    · have next : (steps + 1) * 2 ^ f.fractionBits + fraction + 1
          = (steps + 1 + 1) * 2 ^ f.fractionBits + 0 := by
        rw [Nat.succ_mul (steps + 1)]
        omega
      have last : (2 : ℚ) ^ f.fractionBits = fraction + 1 := by
        have same : 2 ^ f.fractionBits = fraction + 1 := by omega
        exact_mod_cast same
      have twice : (2 : ℚ) ^ (f.minExponent + ((steps + 1 : Nat) : Int))
          = 2 ^ (f.minExponent + steps) * 2 := by
        rw [← zpow_add_one₀ two_ne_zero]
        push_cast
        rw [add_assoc]
      rw [next, toDyadic_wide unit]
      simp only [Dyadic.rational, twice]
      push_cast
      rw [last]
      constructor
      · ring
      · simp

/-- A greater magnitude stands for a number at least as great. -/
lemma rational_mono {k : Nat} (le : k ≤ m) :
    (f.toDyadic k).rational ≤ (f.toDyadic m).rational := by
  refine monotone_nat_of_le_succ (f := fun k => (f.toDyadic k).rational) (fun k => ?_) le
  have gap : (0 : ℚ) < 2 ^ (f.toDyadic k).exponent := by positivity
  have next := (f.toDyadic_succ k).1
  linarith

/-- **No magnitude is closer to a rational than the one that covers it.** -/
theorem closest_of_covers (covers : (f.toDyadic m).Covers v) (other : Nat) :
    |v - (f.toDyadic m).rational| ≤ |v - (f.toDyadic other).rational| := by
  have unit : (0 : ℚ) < 2 ^ (f.toDyadic m).exponent := by positivity
  have high := (div_le_iff₀ unit).1 covers.high
  have low := (le_div_iff₀ unit).1 covers.low
  rcases Nat.lt_trichotomy other m with below | rfl | above
  · obtain ⟨k, rfl⟩ := Nat.exists_eq_add_one_of_ne_zero (Nat.ne_of_gt (Nat.zero_lt_of_lt below))
    obtain ⟨next, gap⟩ := f.toDyadic_succ k
    have le := rational_mono (f := f) (Nat.lt_succ_iff.1 below)
    have apart : (f.toDyadic (k + 1)).rational - v ≤ v - (f.toDyadic other).rational := by
      rw [gap] at next
      rw [sub_mul] at low
      split_ifs at next low <;> unfold Dyadic.rational at * <;> linarith
    have less : (f.toDyadic other).rational ≤ (f.toDyadic (k + 1)).rational :=
      rational_mono below.le
    exact (abs_le.2 ⟨by linarith, by linarith⟩).trans (le_abs_self _)
  · exact le_rfl
  · have next := (f.toDyadic_succ m).1
    have le := rational_mono (f := f) (Nat.succ_le_of_lt above)
    have apart : v - (f.toDyadic m).rational ≤ (f.toDyadic other).rational - v := by
      rw [add_mul] at high
      unfold Dyadic.rational at *
      linarith
    have less : (f.toDyadic m).rational ≤ (f.toDyadic other).rational := rational_mono above.le
    exact (abs_le.2 ⟨by linarith, by linarith⟩).trans (neg_le_abs _)

/-! ## Decimals in range -/

/-- **A numeral is rounded to what covers it**, unless a value other than zero vanishes. -/
theorem ofNumeral_eq_iff (moderate : f.Moderate) (wide : 0 < f.fractionBits)
    (finite : m < f.infinity) {x : Numeral} (zero : m = 0 → x.digits = 0) :
    f.ofNumeral x = f.withSign x.negative m ↔
      (f.toDyadic m).Covers (decimalValue (x.digits, x.exponent)) := by
  constructor
  · intro rounded
    unfold ofNumeral at rounded
    have same := congrArg f.magnitude rounded
    dsimp only at same
    rw [magnitude_withSign finite.le] at same
    split_ifs at same with tiny huge
    · rw [magnitude_withSign (Nat.zero_le _)] at same
      rw [zero same.symm, ← same]
      exact covers_zero x.exponent
    · rw [magnitude_withSign le_rfl] at same
      exact absurd same.symm finite.ne
    · rw [magnitude_withSign (nearest_le_infinity _ _)] at same
      have nonzero : 0 < x.digits := by
        simp only [Bool.or_eq_true, decide_eq_true_eq, not_or] at tiny
        exact Nat.pos_of_ne_zero tiny.1
      have covers := covers_nearest wide (Nat.mul_pos nonzero (tenTo_pos x.exponent))
        (tenTo_pos (-x.exponent)) (same ▸ finite)
      rwa [scaled_decimal, same] at covers
  · intro covers
    rcases Nat.eq_zero_or_pos m with rfl | positive
    · simp [ofNumeral, zero rfl]
    · obtain ⟨mantissa, -⟩ := toDyadic_bounds positive finite
      exact ofNumeral_of_covers moderate positive finite (covers.pos_of_decimal mantissa) covers

end BinaryFormat

/-- **A text has a pattern exactly if it is a decimal that a finite magnitude covers**, zero only a
decimal without other digits. -/
theorem floatingOfChars_ok_iff (moderate : f.Moderate) (wide : 0 < f.fractionBits)
    {cs : List Char} {bits : Nat} : floatingOfChars f cs = .ok bits ↔
      ∃ x, Numeral.ofChars? cs = some x ∧ ∃ m < f.infinity,
        (f.toDyadic m).Covers (decimalValue (x.digits, x.exponent)) ∧
          (m = 0 → x.digits = 0) ∧ bits = f.withSign x.negative m := by
  rw [floatingOfChars]
  cases Numeral.ofChars? cs with
  | none => simp
  | some x =>
      obtain ⟨n, le, rounded⟩ := BinaryFormat.ofNumeral_le_infinity (f := f) x
      have inRange : (f.isInfinite (f.ofNumeral x) ||
          (f.magnitude (f.ofNumeral x) = 0 && x.digits != 0)) = false ↔
          n < f.infinity ∧ (n = 0 → x.digits = 0) := by
        rw [rounded, BinaryFormat.isInfinite, BinaryFormat.magnitude_withSign le]
        simp [Nat.lt_iff_le_and_ne, le]
      dsimp only
      constructor
      · intro read
        split_ifs at read with out
        cases read
        obtain ⟨finite, zero⟩ := inRange.1 (by simpa using out)
        exact ⟨x, rfl, n, finite,
          (BinaryFormat.ofNumeral_eq_iff moderate wide finite zero).1 rounded, zero, rounded⟩
      · rintro ⟨_, ⟨⟩, m, finite, covers, zero, rfl⟩
        have nearest := (BinaryFormat.ofNumeral_eq_iff moderate wide finite zero).2 covers
        have same := congrArg f.magnitude (rounded.symm.trans nearest)
        rw [BinaryFormat.magnitude_withSign le, BinaryFormat.magnitude_withSign finite.le] at same
        subst same
        rw [inRange.2 ⟨finite, zero⟩, rounded]
        rfl

end DocAnnotations.Decimal
