import DocAnnotations.Decimal.Shortest
import DocAnnotations.Proofs.Decimal.Finite
import Mathlib.Algebra.Order.Field.Power
import Mathlib.Algebra.Order.Field.Rat
import Mathlib.Tactic.FieldSimp
import Mathlib.Tactic.Linarith
import Mathlib.Tactic.Positivity

/-!
# Rounding to the nearest pattern

All rounding works on quotients of naturals that stand for a rational number.

**The size of a quotient.**  Its binary logarithm is found from the lengths of the two naturals and
one comparison; `ratioLog2_spec` says that it is exact.

**Rounding to a natural.**  `RoundsTo v m` says that `m` is closest to `v`, and is even where two
are.  Only one natural is, and `roundQuotient` finds it.

**What a pattern covers.**  `Dyadic.Covers` says which rationals belong to a finite magnitude: those
up to halfway to its neighbours, a halfway point itself only if the mantissa is even.
**`nearest_of_covers`**: what a magnitude covers is rounded to it.  Three cases differ: values with
the least exponent, values with a mantissa in its range, and values just below a power of two, which
are rounded with the exponent below and then carried.
-/

namespace DocAnnotations.Decimal

/-! ## Powers -/

lemma twoTo_pos (e : Int) : 0 < twoTo e := Nat.two_pow_pos _

lemma tenTo_pos (e : Int) : 0 < tenTo e := Nat.pow_pos (by decide)

/-- A power with an exponent of either sign is a quotient of powers with natural exponents. -/
lemma cast_pow_toNat {b : Nat} (positive : 0 < b) (e : Int) :
    ((b ^ e.toNat : Nat) : ℚ) = (b : ℚ) ^ e * ((b ^ (-e).toNat : Nat) : ℚ) := by
  have nonzero : (b : ℚ) ≠ 0 := by exact_mod_cast positive.ne'
  rcases Int.le_total 0 e with sign | sign
  · obtain ⟨n, rfl⟩ := Int.eq_ofNat_of_zero_le sign
    simp
  · obtain ⟨n, same⟩ := Int.eq_ofNat_of_zero_le (Int.neg_nonneg_of_nonpos sign)
    obtain rfl : e = -n := by omega
    simp [nonzero]

lemma cast_twoTo (e : Int) : (twoTo e : ℚ) = 2 ^ e * twoTo (-e) :=
  cast_pow_toNat (b := 2) (by decide) e

lemma cast_tenTo (e : Int) : (tenTo e : ℚ) = 10 ^ e * tenTo (-e) :=
  cast_pow_toNat (b := 10) (by decide) e

/-! ## The size of a quotient -/

section

variable {num den : Nat}

/-- Whether a quotient is below a power of two can be seen on natural numbers, scaled on one
side. -/
lemma scaled_lt_iff (positive : 0 < den) (k : Int) :
    num * twoTo (-k) < den * twoTo k ↔ (num : ℚ) / den < 2 ^ k := by
  have scale : (0 : ℚ) < twoTo (-k) := by exact_mod_cast twoTo_pos _
  have below : (0 : ℚ) < den := by exact_mod_cast positive
  rw [← Nat.cast_lt (α := ℚ), Nat.cast_mul, Nat.cast_mul, cast_twoTo k, ← mul_assoc,
    mul_lt_mul_iff_left₀ scale, div_lt_iff₀ below, mul_comm]

/-- The lengths of two numbers determine the logarithm of their quotient up to one. -/
lemma quotient_bounds (top : 0 < num) (bottom : 0 < den) :
    (2 : ℚ) ^ ((num.log2 : Int) - den.log2 - 1) ≤ num / den ∧
      (num : ℚ) / den < 2 ^ ((num.log2 : Int) - den.log2 + 1) := by
  have bounds : ∀ {n : Nat}, 0 < n → (2 : ℚ) ^ (n.log2 : Int) ≤ n ∧
      (n : ℚ) < 2 ^ ((n.log2 : Int) + 1) := by
    intro n positive
    have low := Nat.log2_self_le positive.ne'
    have high := Nat.lt_log2_self (n := n)
    constructor
    · rw [zpow_natCast]
      exact_mod_cast low
    · rw [← Nat.cast_succ, zpow_natCast]
      exact_mod_cast high
  have below : (0 : ℚ) < den := by exact_mod_cast bottom
  obtain ⟨numLow, numHigh⟩ := bounds top
  obtain ⟨denLow, denHigh⟩ := bounds bottom
  constructor
  · rw [le_div_iff₀ below]
    calc (2 : ℚ) ^ ((num.log2 : Int) - den.log2 - 1) * den
        ≤ 2 ^ ((num.log2 : Int) - den.log2 - 1) * 2 ^ ((den.log2 : Int) + 1) := by gcongr
      _ = 2 ^ (num.log2 : Int) := by rw [← zpow_add₀ two_ne_zero]; congr 1; omega
      _ ≤ num := numLow
  · rw [div_lt_iff₀ below]
    calc (num : ℚ) < 2 ^ ((num.log2 : Int) + 1) := numHigh
      _ = 2 ^ ((num.log2 : Int) - den.log2 + 1) * 2 ^ (den.log2 : Int) := by
          rw [← zpow_add₀ two_ne_zero]; congr 1; omega
      _ ≤ 2 ^ ((num.log2 : Int) - den.log2 + 1) * den := by gcongr

/-- The quotient lies between the power of two that is found and the next one. -/
lemma ratioLog2_spec (top : 0 < num) (bottom : 0 < den) :
    (2 : ℚ) ^ ratioLog2 num den ≤ num / den ∧ (num : ℚ) / den < 2 ^ (ratioLog2 num den + 1) := by
  obtain ⟨low, high⟩ := quotient_bounds top bottom
  unfold ratioLog2
  dsimp only
  split_ifs with less
  · rw [scaled_lt_iff bottom] at less
    exact ⟨low, by rwa [Int.sub_add_cancel]⟩
  · rw [scaled_lt_iff bottom] at less
    exact ⟨not_lt.1 less, high⟩

lemma ratioLog2_lt {k : Int} (top : 0 < num) (bottom : 0 < den) (h : (num : ℚ) / den < 2 ^ k) :
    ratioLog2 num den < k :=
  (zpow_lt_zpow_iff_right₀ one_lt_two).1 ((ratioLog2_spec top bottom).1.trans_lt h)

/-- A power of two up to a quotient has an exponent up to the logarithm of the quotient. -/
lemma le_ratioLog2 {k : Int} (top : 0 < num) (bottom : 0 < den) (h : (2 : ℚ) ^ k ≤ num / den) :
    k ≤ ratioLog2 num den :=
  Int.lt_add_one_iff.1 ((zpow_lt_zpow_iff_right₀ (one_lt_two (α := ℚ))).1
    (h.trans_lt (ratioLog2_spec top bottom).2))

/-! ## Rounding to a natural -/

/-- The rational is at most a half away from the natural, and less if the natural is odd. -/
structure RoundsTo (x : ℚ) (m : Nat) : Prop where
  low : (m : ℚ) - 1 / 2 ≤ x
  high : x ≤ m + 1 / 2
  strict : m % 2 = 1 → (m : ℚ) - 1 / 2 < x ∧ x < m + 1 / 2

/-- The same without fractions. -/
lemma roundsTo_iff {m : Nat} (positive : 0 < den) : RoundsTo ((num : ℚ) / den) m ↔
    2 * m * den ≤ 2 * num + den ∧ 2 * num ≤ 2 * m * den + den ∧
      (m % 2 = 1 → 2 * m * den < 2 * num + den ∧ 2 * num < 2 * m * den + den) := by
  have below : (0 : ℚ) < den := by exact_mod_cast positive
  have le_low : (m : ℚ) - 1 / 2 ≤ num / den ↔ 2 * m * den ≤ 2 * num + den := by
    rw [le_div_iff₀ below, ← Nat.cast_le (α := ℚ)]
    push_cast
    constructor <;> intro h <;> linarith
  have high_le : (num : ℚ) / den ≤ m + 1 / 2 ↔ 2 * num ≤ 2 * m * den + den := by
    rw [div_le_iff₀ below, ← Nat.cast_le (α := ℚ)]
    push_cast
    constructor <;> intro h <;> linarith
  have lt_low : (m : ℚ) - 1 / 2 < num / den ↔ 2 * m * den < 2 * num + den := by
    rw [lt_div_iff₀ below, ← Nat.cast_lt (α := ℚ)]
    push_cast
    constructor <;> intro h <;> linarith
  have high_lt : (num : ℚ) / den < m + 1 / 2 ↔ 2 * num < 2 * m * den + den := by
    rw [div_lt_iff₀ below, ← Nat.cast_lt (α := ℚ)]
    push_cast
    constructor <;> intro h <;> linarith
  rw [← le_low, ← high_le, ← lt_low, ← high_lt]
  exact ⟨fun h => ⟨h.low, h.high, h.strict⟩, fun ⟨low, high, strict⟩ => ⟨low, high, strict⟩⟩

/-- A number to which a quotient may be rounded, halves to even, is the one to which it is
rounded. -/
lemma roundQuotient_of_roundsTo {m : Nat} (positive : 0 < den)
    (h : RoundsTo ((num : ℚ) / den) m) : roundQuotient num den = m := by
  obtain ⟨low, high, strict⟩ := (roundsTo_iff positive).1 h
  have split := Nat.div_add_mod num den
  have small := Nat.mod_lt num positive
  unfold roundQuotient
  dsimp only
  generalize num / den = q at *
  generalize num % den = r at *
  subst split
  have notBelow : q ≤ m := by
    by_contra less
    have : (m + 1) * den ≤ q * den := Nat.mul_le_mul_right _ (by omega)
    nlinarith
  have notAbove : m ≤ q + 1 := by
    by_contra more
    have : (q + 2) * den ≤ m * den := Nat.mul_le_mul_right _ (by omega)
    nlinarith
  have product : 2 * (den * q + r) = 2 * q * den + 2 * r := by ring
  rw [product] at low high strict
  obtain rfl | rfl : m = q ∨ m = q + 1 := by omega
  · split_ifs <;> omega
  · have next : 2 * (q + 1) * den = 2 * q * den + 2 * den := by ring
    rw [next] at low high strict
    split_ifs <;> omega

end

/-! ## What a pattern covers -/

/-- The rational is rounded to the value: it lies between the halfway points to the neighbours, and
is one of them only if the mantissa is even. -/
structure Dyadic.Covers (x : Dyadic) (v : ℚ) : Prop where
  low : (x.mantissa : ℚ) - (if x.narrowBelow then 1 / 4 else 1 / 2) ≤ v / 2 ^ x.exponent
  high : v / 2 ^ x.exponent ≤ x.mantissa + 1 / 2
  strict : x.mantissa % 2 = 1 →
    (x.mantissa : ℚ) - (if x.narrowBelow then 1 / 4 else 1 / 2) < v / 2 ^ x.exponent ∧
      v / 2 ^ x.exponent < x.mantissa + 1 / 2

/-- What a value covers is rounded to its mantissa, with its exponent. -/
lemma Dyadic.Covers.roundsTo {x : Dyadic} {v : ℚ} (h : x.Covers v) :
    RoundsTo (v / 2 ^ x.exponent) x.mantissa where
  low := by
    refine le_trans ?_ h.low
    split_ifs <;> linarith
  high := h.high
  strict odd := by
    obtain ⟨low, high⟩ := h.strict odd
    refine ⟨lt_of_le_of_lt ?_ low, high⟩
    split_ifs <;> linarith

namespace BinaryFormat

variable {f : BinaryFormat} {num den : Nat}

/-- A quotient in units of a power of two. -/
lemma scaled_quotient (bottom : 0 < den) (e : Int) :
    ((num * twoTo (-e) : Nat) : ℚ) / (den * twoTo e : Nat) = num / den / 2 ^ e := by
  have scale : (twoTo (-e) : ℚ) ≠ 0 := by exact_mod_cast (twoTo_pos (-e)).ne'
  have below : (den : ℚ) ≠ 0 := by exact_mod_cast bottom.ne'
  have power : (2 : ℚ) ^ e ≠ 0 := by positivity
  rw [Nat.cast_mul, Nat.cast_mul, cast_twoTo e]
  field_simp

/-- The result of rounding, once the exponent and the mantissa are known. -/
lemma nearest_eq {m : Nat} {e : Int} (top : 0 < num) (bottom : 0 < den)
    (exponent : max (ratioLog2 num den - f.fractionBits) f.minExponent = e)
    (rounds : RoundsTo ((num : ℚ) / den / 2 ^ e) m) :
    f.nearest num den
      = min ((e - f.minExponent).toNat * twoTo f.fractionBits + m) f.infinity := by
  have mantissa : roundQuotient (num * twoTo (-e)) (den * twoTo e) = m :=
    roundQuotient_of_roundsTo (Nat.mul_pos bottom (twoTo_pos e)) (scaled_quotient bottom e ▸ rounds)
  rw [nearest, if_neg top.ne']
  simp only [exponent, mantissa]

/-- The exponent of a value whose mantissa has its whole width. -/
lemma exponent_of_inRange {e : Int} (top : 0 < num) (bottom : 0 < den) (le : f.minExponent ≤ e)
    (low : (2 : ℚ) ^ f.fractionBits ≤ num / den / 2 ^ e)
    (high : (num : ℚ) / den / 2 ^ e < 2 ^ (f.fractionBits + 1)) :
    max (ratioLog2 num den - f.fractionBits) f.minExponent = e := by
  have unit : (0 : ℚ) < 2 ^ e := by positivity
  rw [le_div_iff₀ unit, ← zpow_natCast, ← zpow_add₀ two_ne_zero] at low
  rw [div_lt_iff₀ unit, ← zpow_natCast, ← zpow_add₀ two_ne_zero] at high
  have atLeast := le_ratioLog2 top bottom low
  have atMost := ratioLog2_lt top bottom high
  push_cast at atMost
  omega

/-- The exponent of a value whose mantissa does not have its whole width. -/
lemma exponent_of_least (top : 0 < num) (bottom : 0 < den)
    (high : (num : ℚ) / den / 2 ^ f.minExponent < 2 ^ f.fractionBits) :
    max (ratioLog2 num den - f.fractionBits) f.minExponent = f.minExponent := by
  have unit : (0 : ℚ) < 2 ^ f.minExponent := by positivity
  rw [div_lt_iff₀ unit, ← zpow_natCast, ← zpow_add₀ two_ne_zero] at high
  have := ratioLog2_lt top bottom high
  exact max_eq_right (by omega)

/-- Values in the last quarter of the gap below a power of two are rounded up to it. -/
lemma roundsTo_carry {x : ℚ} {p : Nat} (low : (2 : ℚ) ^ p - 1 / 4 ≤ x) (high : x < 2 ^ p) :
    RoundsTo (2 * x) (2 ^ (p + 1)) where
  low := by
    push_cast
    rw [pow_succ]
    linarith
  high := by
    push_cast
    rw [pow_succ]
    linarith
  strict odd := by
    rw [pow_succ, Nat.mul_mod_left] at odd
    cases odd

/-- Where the exponent and the rounded mantissa are known, the nearest pattern is put together from
them. -/
lemma nearest_of_steps {steps m : Nat} (top : 0 < num) (bottom : 0 < den)
    (exponent : max (ratioLog2 num den - f.fractionBits) f.minExponent = f.minExponent + steps)
    (rounds : RoundsTo ((num : ℚ) / den / 2 ^ (f.minExponent + steps)) m)
    (finite : steps * 2 ^ f.fractionBits + m ≤ f.infinity) :
    f.nearest num den = steps * 2 ^ f.fractionBits + m := by
  rw [nearest_eq top bottom exponent rounds, add_sub_cancel_left, Int.toNat_natCast,
    twoTo_natCast]
  exact min_eq_left finite

/-- A magnitude whose mantissa has its whole width. -/
lemma nearest_of_covers_wide {steps fraction : Nat} (top : 0 < num) (bottom : 0 < den)
    (small : fraction < 2 ^ f.fractionBits)
    (finite : steps * 2 ^ f.fractionBits + (2 ^ f.fractionBits + fraction) ≤ f.infinity)
    (h : (Dyadic.mk (2 ^ f.fractionBits + fraction) (f.minExponent + steps)
      (fraction == 0 && decide (steps + 1 > 1))).Covers (num / den)) :
    f.nearest num den = steps * 2 ^ f.fractionBits + (2 ^ f.fractionBits + fraction) := by
  have rounds := h.roundsTo
  have bound : (fraction : ℚ) + 1 ≤ 2 ^ f.fractionBits := by exact_mod_cast small
  have high := h.high
  have low := h.low
  push_cast at high low
  by_cases inRange : (2 : ℚ) ^ f.fractionBits ≤ num / den / 2 ^ (f.minExponent + steps)
  · refine nearest_of_steps top bottom ?_ rounds finite
    refine exponent_of_inRange top bottom (by omega) inRange ?_
    rw [pow_succ]
    linarith
  · rw [not_le] at inRange
    -- the value is just below the power of two that its mantissa is
    obtain rfl : fraction = 0 := by
      have : (fraction : ℚ) < 1 := by
        split_ifs at low <;> linarith
      exact Nat.lt_one_iff.1 (by exact_mod_cast this)
    cases steps with
    | zero =>
        refine nearest_of_steps top bottom ?_ rounds finite
        rw [Nat.cast_zero, Int.add_zero] at inRange ⊢
        exact exponent_of_least top bottom inRange
    | succ steps =>
        have halved : 2 * ((num : ℚ) / den / 2 ^ (f.minExponent + ((steps + 1 : Nat) : Int)))
            = num / den / 2 ^ (f.minExponent + steps) := by
          have power : (2 : ℚ) ^ (f.minExponent + ((steps + 1 : Nat) : Int))
              = 2 ^ (f.minExponent + steps) * 2 := by
            rw [← zpow_add_one₀ two_ne_zero]
            congr 1
            omega
          rw [power]
          field_simp
        have carry : steps * 2 ^ f.fractionBits + 2 ^ (f.fractionBits + 1)
            = (steps + 1) * 2 ^ f.fractionBits + (2 ^ f.fractionBits + 0) := by ring
        simp only [beq_self_eq_true, Bool.true_and, decide_eq_true_eq,
          show steps + 1 + 1 > 1 by omega, if_true, Nat.cast_zero, add_zero] at low
        rw [← carry] at finite ⊢
        refine nearest_of_steps top bottom ?_ (halved ▸ roundsTo_carry low inRange) finite
        refine exponent_of_inRange top bottom (by omega) ?_ ?_
        · rw [← halved]
          linarith
        · rw [← halved, pow_succ]
          linarith

/-- A pattern below the first power of two has the least exponent and no leading bit of its own. -/
lemma toDyadic_least {magnitude : Nat} (small : magnitude < 2 ^ f.fractionBits) :
    f.toDyadic magnitude = ⟨magnitude, f.minExponent, false⟩ := by
  rw [toDyadic, twoTo_natCast]
  simp only [Nat.div_eq_of_lt small, Nat.mod_eq_of_lt small, if_true]

/-- In each further step of the exponent a pattern has a leading bit, and the first pattern of a
step stands at a boundary, except in the very first step. -/
lemma toDyadic_wide {steps fraction : Nat} (small : fraction < 2 ^ f.fractionBits) :
    f.toDyadic ((steps + 1) * 2 ^ f.fractionBits + fraction)
      = ⟨2 ^ f.fractionBits + fraction, f.minExponent + steps,
        fraction == 0 && decide (steps + 1 > 1)⟩ := by
  have field : ((steps + 1) * 2 ^ f.fractionBits + fraction) / 2 ^ f.fractionBits = steps + 1 := by
    rw [Nat.mul_comm, Nat.mul_add_div (Nat.two_pow_pos _), Nat.div_eq_of_lt small, Nat.add_zero]
  have rest : ((steps + 1) * 2 ^ f.fractionBits + fraction) % 2 ^ f.fractionBits = fraction := by
    rw [Nat.mul_comm, Nat.mul_add_mod, Nat.mod_eq_of_lt small]
  rw [toDyadic, twoTo_natCast]
  simp only [field, rest, Nat.add_eq_zero_iff, one_ne_zero, and_false, if_false]
  congr 1
  push_cast
  omega

/-- A magnitude whose exponent field is not zero. -/
lemma exists_steps {magnitude : Nat} (wide : 2 ^ f.fractionBits ≤ magnitude) :
    ∃ steps fraction, fraction < 2 ^ f.fractionBits ∧
      magnitude = (steps + 1) * 2 ^ f.fractionBits + fraction := by
  refine ⟨magnitude / 2 ^ f.fractionBits - 1, magnitude % 2 ^ f.fractionBits,
    Nat.mod_lt _ (Nat.two_pow_pos _), ?_⟩
  have field : 1 ≤ magnitude / 2 ^ f.fractionBits :=
    (Nat.one_le_div_iff (Nat.two_pow_pos _)).2 wide
  rw [Nat.sub_add_cancel field, Nat.div_add_mod']

/-- **Everything that a magnitude covers is rounded to it.** -/
theorem nearest_of_covers {magnitude : Nat} (top : 0 < num) (bottom : 0 < den)
    (finite : magnitude < f.infinity) (h : (f.toDyadic magnitude).Covers (num / den)) :
    f.nearest num den = magnitude := by
  rcases Nat.lt_or_ge magnitude (2 ^ f.fractionBits) with least | wide
  · rw [toDyadic_least least] at h
    have bound : (magnitude : ℚ) + 1 ≤ 2 ^ f.fractionBits := by exact_mod_cast least
    have exponent := exponent_of_least (f := f) top bottom (lt_of_le_of_lt h.high (by linarith))
    rw [nearest_eq top bottom exponent h.roundsTo, Int.sub_self, Int.toNat_zero, Nat.zero_mul,
      Nat.zero_add]
    exact min_eq_left finite.le
  · obtain ⟨steps, fraction, small, rfl⟩ := exists_steps wide
    rw [toDyadic_wide small] at h
    rw [Nat.succ_mul, Nat.add_assoc] at finite ⊢
    exact nearest_of_covers_wide top bottom small finite.le h

end BinaryFormat

end DocAnnotations.Decimal
