import DocAnnotations.Proofs.Decimal.Text

/-!
# Finite patterns are read back from their texts

A finite value covers the decimal that is chosen for it, and what a value covers is rounded to it.
So the text of a value should be read back as the value.

**The size of values.**  The reader does not compute powers past a bound on the size of a decimal.
What a positive finite pattern covers lies between powers of two that depend on the format alone
(`toDyadic_bounds`, `Dyadic.Covers.bounds`).  The decimals of `Moderate` formats, the two that there
are among them, stay within the bound (`size_of_covers`).

**Reading back.**  **`floatingOfChars_finite`**: every finite pattern is read back from its text,
bit for bit, zeros and signs included.
-/

namespace DocAnnotations.Decimal

variable {f : BinaryFormat} {magnitude bits n : Nat} {e : Int}

/-! ## The size of values -/

namespace BinaryFormat

/-- The exponents of all values of the format are far from the bound on decimal exponents. -/
structure Moderate (f : BinaryFormat) : Prop where
  low : -1100 ≤ f.minExponent
  high : f.minExponent + f.fractionBits + (2 ^ f.exponentBits : Nat) ≤ 1100

lemma moderate_single : single.Moderate := by constructor <;> decide

lemma moderate_double : double.Moderate := by constructor <;> decide

/-- A positive finite pattern stands for a mantissa and an exponent in the range of the format. -/
lemma toDyadic_bounds (positive : 0 < magnitude) (finite : magnitude < f.infinity) :
    0 < (f.toDyadic magnitude).mantissa ∧
      (f.toDyadic magnitude).mantissa < 2 ^ (f.fractionBits + 1) ∧
      f.minExponent ≤ (f.toDyadic magnitude).exponent ∧
      (f.toDyadic magnitude).exponent < f.minExponent + (2 ^ f.exponentBits : Nat) := by
  have unit : 0 < 2 ^ f.fractionBits := Nat.two_pow_pos _
  have field : 0 < 2 ^ f.exponentBits := Nat.two_pow_pos _
  rcases Nat.lt_or_ge magnitude (2 ^ f.fractionBits) with least | wide
  · rw [toDyadic_least least, pow_succ]
    dsimp only
    omega
  · obtain ⟨steps, fraction, small, rfl⟩ := exists_steps wide
    have inside : (steps + 1) * 2 ^ f.fractionBits
        < (2 ^ f.exponentBits - 1) * 2 ^ f.fractionBits :=
      lt_of_le_of_lt (Nat.le_add_right _ _) finite
    have steps' : steps + 1 < 2 ^ f.exponentBits - 1 := Nat.lt_of_mul_lt_mul_right inside
    rw [toDyadic_wide small, pow_succ]
    dsimp only
    omega

end BinaryFormat

/-- A number that a positive pattern covers is at least half a step, and less than a step above the
pattern. -/
lemma Dyadic.Covers.bounds {x : Dyadic} {v : ℚ} (h : x.Covers v) (positive : 0 < x.mantissa) :
    2 ^ (x.exponent - 1) ≤ v ∧ v < (x.mantissa + 1) * 2 ^ x.exponent := by
  have unit : (0 : ℚ) < 2 ^ x.exponent := by positivity
  have one : (1 : ℚ) ≤ x.mantissa := by exact_mod_cast positive
  have low : 1 / 2 ≤ v / 2 ^ x.exponent := by
    have low := h.low
    split_ifs at low <;> linarith
  have high : v / 2 ^ x.exponent < x.mantissa + 1 := by linarith [h.high]
  rw [le_div_iff₀ unit] at low
  rw [div_lt_iff₀ unit] at high
  rw [zpow_sub_one₀ two_ne_zero]
  constructor <;> linarith

/-- Positive values cover no decimal without digits other than zero. -/
lemma Dyadic.Covers.pos_of_decimal {x : Dyadic} (h : x.Covers (decimalValue (n, e)))
    (positive : 0 < x.mantissa) : 0 < n := by
  have above := (h.bounds positive).1
  have unit : (0 : ℚ) < 2 ^ (x.exponent - 1) := by positivity
  rcases Nat.eq_zero_or_pos n with rfl | more
  · simp only [decimalValue, Nat.cast_zero, zero_mul] at above
    linarith
  · exact more

/-- A decimal lies between the powers of ten that its size names. -/
lemma decimalValue_bounds (positive : 0 < n) (e : Int) :
    10 ^ (e + decimalLength n - 1) ≤ decimalValue (n, e) ∧
      decimalValue (n, e) < 10 ^ (e + decimalLength n) := by
  have above : n < 10 ^ decimalLength n :=
    (Nat.length_toDigits_le_iff (by decide) Nat.length_toDigits_pos).1 le_rfl
  obtain ⟨k, length⟩ : ∃ k, decimalLength n = k + 1 :=
    Nat.exists_eq_succ_of_ne_zero Nat.length_toDigits_pos.ne'
  have below : 10 ^ k ≤ n := by
    rcases Nat.eq_zero_or_pos k with rfl | more
    · exact positive
    · rw [← Nat.not_lt, ← Nat.length_toDigits_le_iff (by decide) more]
      change ¬ decimalLength n ≤ k
      omega
  have unit : (0 : ℚ) < 10 ^ e := by positivity
  have ten : (10 : ℚ) ≠ 0 := by norm_num
  rw [length] at above
  simp only [decimalValue, length]
  constructor
  · rw [Nat.cast_succ, ← add_assoc, add_sub_cancel_right, zpow_add₀ ten, mul_comm, zpow_natCast]
    gcongr
    exact_mod_cast below
  · rw [zpow_add₀ ten, mul_comm, zpow_natCast]
    gcongr
    exact_mod_cast above

lemma two_pow_le_ten_pow : (2 : ℚ) ^ (1101 : Int) ≤ 10 ^ (400 : Int) := by
  have eight : (2 : ℚ) ^ (3 : Int) ≤ 10 := by norm_num
  calc (2 : ℚ) ^ (1101 : Int) = (2 ^ (3 : Int)) ^ (367 : Int) := by
        rw [← zpow_mul]
        norm_num only
    _ ≤ 10 ^ (367 : Int) := zpow_le_zpow_left₀ (by decide) (by positivity) eight
    _ ≤ 10 ^ (400 : Int) := zpow_le_zpow_right₀ (by norm_num) (by decide)

/-- The decimals that a value covers are recognised neither as too large nor as too small. -/
lemma size_of_covers (moderate : f.Moderate) (positive : 0 < magnitude)
    (finite : magnitude < f.infinity) (nonzero : 0 < n)
    (h : (f.toDyadic magnitude).Covers (decimalValue (n, e))) :
    -exponentBound ≤ e + decimalLength n ∧ e + decimalLength n ≤ exponentBound := by
  obtain ⟨mantissa, width, least, greatest⟩ := BinaryFormat.toDyadic_bounds positive finite
  obtain ⟨low, high⟩ := h.bounds mantissa
  obtain ⟨below, above⟩ := decimalValue_bounds nonzero e
  have ten : (1 : ℚ) < 10 := by norm_num
  have inverse : (10 : ℚ) ^ (-400 : Int) ≤ 2 ^ (-1101 : Int) := by
    rw [zpow_neg, zpow_neg]
    exact inv_anti₀ (zpow_pos two_pos _) two_pow_le_ten_pow
  have lowest := moderate.low
  have highest := moderate.high
  generalize f.toDyadic magnitude = x at *
  have floor : (2 : ℚ) ^ (-1101 : Int) ≤ 2 ^ (x.exponent - 1) :=
    zpow_le_zpow_right₀ one_le_two (by omega)
  have ceiling : ((x.mantissa : ℚ) + 1) * 2 ^ x.exponent ≤ 2 ^ (1101 : Int) := by
    have : (x.mantissa : ℚ) + 1 ≤ 2 ^ (f.fractionBits + 1) := by exact_mod_cast width
    calc ((x.mantissa : ℚ) + 1) * 2 ^ x.exponent
        ≤ 2 ^ (f.fractionBits + 1) * 2 ^ x.exponent := by gcongr
      _ = 2 ^ ((f.fractionBits : Int) + 1 + x.exponent) := by
          rw [zpow_add₀ two_ne_zero]
          norm_cast
      _ ≤ 2 ^ (1101 : Int) := zpow_le_zpow_right₀ one_le_two (by omega)
  have up : (-400 : Int) < e + decimalLength n :=
    (zpow_lt_zpow_iff_right₀ ten).1 ((inverse.trans (floor.trans low)).trans_lt above)
  have down : e + decimalLength n - 1 < 400 :=
    (zpow_lt_zpow_iff_right₀ ten).1
      ((below.trans_lt high).trans_le (ceiling.trans two_pow_le_ten_pow))
  unfold exponentBound
  omega

/-! ## Reading back -/

namespace BinaryFormat

/-- A decimal as the quotient that is rounded. -/
lemma scaled_decimal (n : Nat) (e : Int) :
    ((n * tenTo e : Nat) : ℚ) / (tenTo (-e) : Nat) = decimalValue (n, e) := by
  have scale : (tenTo (-e) : ℚ) ≠ 0 := by exact_mod_cast (tenTo_pos _).ne'
  rw [Nat.cast_mul, cast_tenTo e, decimalValue, ← mul_assoc, mul_div_cancel_right₀ _ scale]

/-- A numeral that a value covers is rounded to it. -/
lemma ofNumeral_of_covers (moderate : f.Moderate) (positive : 0 < magnitude)
    (finite : magnitude < f.infinity) {x : Numeral} (nonzero : 0 < x.digits)
    (h : (f.toDyadic magnitude).Covers (decimalValue (x.digits, x.exponent))) :
    f.ofNumeral x = f.withSign x.negative magnitude := by
  obtain ⟨low, high⟩ := size_of_covers moderate positive finite nonzero h
  have nearest : f.nearest (x.digits * tenTo x.exponent) (tenTo (-x.exponent)) = magnitude :=
    nearest_of_covers (Nat.mul_pos nonzero (tenTo_pos _)) (tenTo_pos _) finite
      (by rwa [scaled_decimal])
  unfold ofNumeral
  dsimp only
  rw [if_neg (by simp; omega), if_neg (by omega), nearest]

/-- A pattern is put together again from its sign and its magnitude. -/
lemma withSign_magnitude (bound : bits < 2 * f.signBit) :
    f.withSign (f.isNegative bits) (f.magnitude bits) = bits := by
  unfold withSign isNegative magnitude
  rcases Nat.lt_or_ge bits f.signBit with below | above
  · rw [if_neg (by simpa using below), Nat.mod_eq_of_lt below]
  · rw [if_pos (by simpa using above), Nat.mod_eq_sub_mod above, Nat.mod_eq_of_lt (by omega)]
    omega

end BinaryFormat

/-- Of the decimal of a text only its value matters. -/
lemma DecimalText.StandsFor.decimalValue_eq {t : DecimalText} (h : t.StandsFor n e) :
    ∃ m k, Numeral.ofChars? t.chars = some ⟨t.negative, m, k⟩ ∧ (m = 0 ↔ n = 0) ∧
      decimalValue (m, k) = decimalValue (n, e) := by
  obtain ⟨k, value, exponent⟩ := h
  refine ⟨n * 10 ^ k, e - k, ?_, by simp, ?_⟩
  · rw [DecimalText.ofChars?_chars value, exponent]
  · rw [decimalValue, decimalValue, zpow_sub₀ (by norm_num)]
    push_cast
    rw [zpow_natCast]
    field_simp

/-- **A finite pattern is written as a decimal, and read back from it**, bit for bit. -/
theorem floatingOfChars_finite {l : Layout} (plain : l.plusSign = false) (moderate : f.Moderate)
    (finite : f.IsFinite bits) (bound : bits < 2 * f.signBit) :
    ∃ t : DecimalText, t.chars = l.finite f bits ∧ floatingOfChars f t.chars = .ok bits := by
  have back := BinaryFormat.withSign_magnitude bound
  have notInfinite := (BinaryFormat.isFinite_iff.1 finite).2
  unfold Layout.finite
  dsimp only
  by_cases zero : f.magnitude bits = 0
  · refine ⟨⟨f.isNegative bits, zeros 1, zeros 1, none, by simp [zeros], isDigit_zeros 1,
      isDigit_zeros 1, by simp [zeros]⟩, ?_, ?_⟩
    · rw [if_pos zero]
      rfl
    · unfold floatingOfChars
      rw [DecimalText.ofChars?_chars (show _ = some 0 by rfl)]
      rw [zero] at back
      simp [BinaryFormat.ofNumeral, back, notInfinite]
  · have positive : 0 < f.magnitude bits := by omega
    obtain ⟨mantissa, -⟩ := BinaryFormat.toDyadic_bounds positive finite
    have covers := Dyadic.covers_shortest mantissa l.tie
    obtain ⟨t, sign, stands, chars⟩ := exists_decimalText plain (f.isNegative bits)
      ((f.toDyadic (f.magnitude bits)).shortest l.tie).1
      ((f.toDyadic (f.magnitude bits)).shortest l.tie).2
    obtain ⟨m, k, numeral, -, value⟩ := stands.decimalValue_eq
    rw [Prod.mk.eta] at value
    rw [← value] at covers
    refine ⟨t, by rw [if_neg zero, chars], ?_⟩
    have same := BinaryFormat.ofNumeral_of_covers moderate positive finite
      (x := ⟨t.negative, m, k⟩) (covers.pos_of_decimal mantissa) covers
    rw [sign] at same numeral
    rw [floatingOfChars, numeral]
    simp [same, back, notInfinite, zero]

end DocAnnotations.Decimal
