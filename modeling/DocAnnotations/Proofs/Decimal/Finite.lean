import DocAnnotations.Literal.Floating
import Mathlib.Tactic.Ring

/-!
# Finite patterns

The pattern of a floating value is finite when its magnitude is below that of infinity.  A sign is
one bit more, and changes nothing about it (`magnitude_withSign`).

**Literals.**  Rounding never gives a magnitude above infinity, whatever the quotient.  A text whose
nearest pattern is infinity is refused, so that a literal that is accepted is finite
(**`floatingLiteral_ok`**).

**Integers.**  An integer that stands for a floating value is rounded as a decimal is.  Integers of
up to 64 bits are far below the range of both formats, so that they are finite as well
(**`isFinite_ofInt`**).
-/

namespace DocAnnotations.Decimal

namespace BinaryFormat

variable {f : BinaryFormat}

/-- A pattern that is neither infinite nor no number. -/
def IsFinite (f : BinaryFormat) (bits : Nat) : Prop := f.magnitude bits < f.infinity

/-- A pattern is finite if and only if it is neither a NaN nor an infinity. -/
lemma isFinite_iff {bits : Nat} :
    f.IsFinite bits ↔ f.isNaN bits = false ∧ f.isInfinite bits = false := by
  simp only [IsFinite, isNaN, isInfinite, decide_eq_false_iff_not, beq_eq_false_iff_ne]
  omega

lemma twoTo_natCast (n : Nat) : twoTo n = 2 ^ n := rfl

/-- The pattern of infinity leaves the sign bit free, so that a sign can be added to it. -/
lemma infinity_lt_signBit (f : BinaryFormat) : f.infinity < f.signBit := by
  have positive : 0 < 2 ^ f.fractionBits := Nat.two_pow_pos _
  have large : 0 < 2 ^ f.exponentBits := Nat.two_pow_pos _
  have sign : f.signBit = 2 ^ f.exponentBits * 2 ^ f.fractionBits := by
    rw [signBit, ← Nat.cast_add, twoTo_natCast, Nat.pow_add, Nat.mul_comm]
  rw [sign, infinity, twoTo_natCast, twoTo_natCast]
  exact Nat.mul_lt_mul_of_pos_right (by omega) positive

/-- Adding a sign to a magnitude up to infinity does not change the magnitude. -/
lemma magnitude_withSign {m : Nat} (h : m ≤ f.infinity) (negative : Bool) :
    f.magnitude (f.withSign negative m) = m := by
  have below := lt_of_le_of_lt h f.infinity_lt_signBit
  cases negative with
  | false => exact Nat.mod_eq_of_lt below
  | true =>
      rw [withSign, if_pos rfl, magnitude, Nat.add_mod_left, Nat.mod_eq_of_lt below]

/-- A magnitude up to infinity with a sign is a pattern of the format. -/
lemma withSign_lt {m : Nat} (h : m ≤ f.infinity) (negative : Bool) :
    f.withSign negative m < 2 * f.signBit := by
  have below := lt_of_le_of_lt h f.infinity_lt_signBit
  unfold withSign
  split_ifs <;> omega

/-- Rounding a quotient never goes past the pattern of infinity. -/
lemma nearest_le_infinity (num den : Nat) : f.nearest num den ≤ f.infinity := by
  unfold nearest
  split_ifs
  · exact Nat.zero_le _
  · exact min_le_right _ _

/-! ## Literals -/

/-- A numeral is rounded to a magnitude up to infinity, with its sign. -/
lemma ofNumeral_le_infinity (x : Numeral) :
    ∃ m ≤ f.infinity, f.ofNumeral x = f.withSign x.negative m := by
  refine ⟨_, ?_, rfl⟩
  split_ifs
  · exact Nat.zero_le _
  · exact le_rfl
  · exact nearest_le_infinity _ _

/-- A text that is read as a number is read as a finite pattern of the format. -/
lemma floatingOfChars_ok {cs : List Char} {bits : Nat} (h : floatingOfChars f cs = .ok bits) :
    f.IsFinite bits ∧ bits < 2 * f.signBit := by
  unfold floatingOfChars at h
  split at h
  · cases h
  · next numeral _ =>
    dsimp only at h
    split_ifs at h with outOfRange
    cases Except.ok.inj h
    obtain ⟨m, le, same⟩ := ofNumeral_le_infinity (f := f) numeral
    have notInfinite : f.isInfinite (f.ofNumeral numeral) = false := by
      simp only [Bool.or_eq_true, not_or, Bool.not_eq_true] at outOfRange
      exact outOfRange.1
    rw [same, isInfinite, magnitude_withSign le, beq_eq_false_iff_ne] at notInfinite
    rw [same]
    refine ⟨?_, withSign_lt le _⟩
    rw [IsFinite, magnitude_withSign le]
    exact lt_of_le_of_ne le notInfinite

/-- A floating literal is a finite pattern of its format. -/
theorem floatingLiteral_ok {own other : Char} {cs : List Char} {bits : Nat}
    (h : floatingLiteral f own other cs = .ok bits) :
    f.IsFinite bits ∧ bits < 2 * f.signBit := by
  unfold floatingLiteral at h
  split at h
  · cases h
  · split_ifs at h
    · exact floatingOfChars_ok h
    · exact floatingOfChars_ok h

/-! ## Integers -/

/-- A quotient below a number is rounded to that number at most. -/
lemma roundQuotient_le {num den q : Nat} (h : num < q * den) : roundQuotient num den ≤ q := by
  have below : num / den < q := by
    rcases Nat.eq_zero_or_pos den with rfl | positive
    · simp at h
    · exact (Nat.div_lt_iff_lt_mul positive).2 h
  unfold roundQuotient
  dsimp only
  split_ifs <;> omega

/-- The logarithm of a natural number is found up to one. -/
lemma ratioLog2_one (num : Nat) :
    (num.log2 : Int) - 1 ≤ ratioLog2 num 1 ∧ ratioLog2 num 1 ≤ num.log2 := by
  have one : Nat.log2 1 = 0 := by decide
  unfold ratioLog2
  simp only [one]
  split_ifs <;> omega

/-- The mantissa of an integer has at most two bits more than the fraction, and its exponent is that
of an integer with at most 65 bits; both are small where the exponent field is wide. -/
lemma nearest_lt_infinity {num : Nat} (small : num < 2 ^ 65)
    (wide : (max (64 - (f.fractionBits : Int)) f.minExponent - f.minExponent).toNat + 4
      < 2 ^ f.exponentBits - 1) : f.nearest num 1 < f.infinity := by
  have positive : 0 < 2 ^ f.fractionBits := Nat.two_pow_pos _
  have infinity : f.infinity = (2 ^ f.exponentBits - 1) * 2 ^ f.fractionBits := rfl
  unfold nearest
  split_ifs with zero
  · rw [infinity]
    exact Nat.mul_pos (by omega) positive
  · obtain ⟨lower, upper⟩ := ratioLog2_one num
    have log : num.log2 ≤ 64 := Nat.le_of_lt_succ ((Nat.log2_lt zero).2 small)
    generalize ratioLog2 num 1 = ratio at lower upper
    have exponent : (max (ratio - f.fractionBits) f.minExponent - f.minExponent).toNat
        ≤ (max (64 - (f.fractionBits : Int)) f.minExponent - f.minExponent).toNat := by omega
    have above : ratio - f.fractionBits ≤ max (ratio - f.fractionBits) f.minExponent :=
      le_max_left _ _
    dsimp only
    generalize max (ratio - (f.fractionBits : Int)) f.minExponent = e at exponent above
    have mantissa : roundQuotient (num * twoTo (-e)) (1 * twoTo e) ≤ 2 ^ (f.fractionBits + 2) := by
      refine roundQuotient_le ?_
      have exponents : num.log2 + 1 + (-e).toNat ≤ f.fractionBits + 2 + e.toNat := by omega
      calc num * twoTo (-e)
          < 2 ^ (num.log2 + 1) * 2 ^ (-e).toNat :=
            Nat.mul_lt_mul_of_pos_right Nat.lt_log2_self (Nat.two_pow_pos _)
        _ = 2 ^ (num.log2 + 1 + (-e).toNat) := (Nat.pow_add _ _ _).symm
        _ ≤ 2 ^ (f.fractionBits + 2 + e.toNat) := Nat.pow_le_pow_right (by omega) exponents
        _ = 2 ^ (f.fractionBits + 2) * (1 * twoTo e) := by
            rw [Nat.pow_add, Nat.one_mul]
            rfl
    refine lt_of_le_of_lt (min_le_left _ _) ?_
    rw [infinity]
    have width : twoTo f.fractionBits = 2 ^ f.fractionBits := rfl
    calc (e - f.minExponent).toNat * twoTo f.fractionBits
          + roundQuotient (num * twoTo (-e)) (1 * twoTo e)
        ≤ (e - f.minExponent).toNat * 2 ^ f.fractionBits + 2 ^ (f.fractionBits + 2) := by
          rw [width]
          exact Nat.add_le_add_left mantissa _
      _ = ((e - f.minExponent).toNat + 4) * 2 ^ f.fractionBits := by ring
      _ < (2 ^ f.exponentBits - 1) * 2 ^ f.fractionBits :=
          Nat.mul_lt_mul_of_pos_right (by omega) positive

/-- An integer of up to 64 bits, of either sign, rounds to a finite pattern. -/
theorem isFinite_ofInt {n : Int} (small : n.natAbs < 2 ^ 65)
    (wide : (max (64 - (f.fractionBits : Int)) f.minExponent - f.minExponent).toNat + 4
      < 2 ^ f.exponentBits - 1) :
    f.IsFinite (f.ofInt n) ∧ f.ofInt n < 2 * f.signBit := by
  have below := nearest_lt_infinity small wide
  have le := Nat.le_of_lt below
  refine ⟨?_, withSign_lt le _⟩
  rw [IsFinite, ofInt, magnitude_withSign le]
  exact below

end BinaryFormat

end DocAnnotations.Decimal
