import DocAnnotations.Text.Digit
import Mathlib.Data.Nat.Digits.Defs
import Mathlib.Tactic.IntervalCases

/-!
# Numbers written in digits

**Values of places.**  A text of digits is read as the sum of its digits, each times the power of
the base for its place (**`numberOf?_iff`**).  `placeValue` is this sum; it is zero exactly for
zeros.

**The digits of a number.**  So reading the digits of a number gives the number
(**`numberOf?_toDigits`**), in every base up to sixteen.  Zeros in front change nothing, and zeros
behind multiply by the base.

**Decimal digits.**  What is written for a number in the decimal base consists of decimal digits,
and does not begin with a zero unless the number is zero.
-/

namespace DocAnnotations.Text

variable {b k m n : Nat} {cs ds : List Char}

/-! ## Values of places -/

/-- The sum of the digits, each times the power of the base for its place. -/
def placeValue (b : Nat) (ds : List Char) : Nat :=
  Nat.ofDigits b (ds.reverse.map fun d => (digitValue? d).getD 0)

/-- A leading digit counts by the place that the following digits give it. -/
lemma placeValue_cons (d : Char) :
    placeValue b (d :: ds) = (digitValue? d).getD 0 * b ^ ds.length + placeValue b ds := by
  rw [placeValue, placeValue, List.reverse_cons, List.map_append, Nat.ofDigits_append,
    List.map_cons, List.map_nil, Nat.ofDigits_singleton, List.length_map, List.length_reverse,
    Nat.mul_comm, Nat.add_comm]

lemma digitOf?_eq_some {d : Char} (digit : (digitOf? b d).isSome) :
    digitOf? b d = some ((digitValue? d).getD 0) := by
  unfold digitOf? at digit ⊢
  split at digit
  · next value found =>
    split_ifs at digit with less
    · rw [if_pos less, found, Option.getD_some]
    · cases digit
  · cases digit

/-- The digits of the decimal base are the decimal digits. -/
lemma isSome_digitOf?_iff {c : Char} : (digitOf? 10 c).isSome = true ↔ c.isDigit = true := by
  have decimal : c.isDigit = ('0' ≤ c && c ≤ '9' : Bool) := rfl
  have nine : c ≤ '9' → c.toNat ≤ 57 := id
  rw [decimal]
  unfold digitOf? digitValue?
  split_ifs with digit small large
  · have high := nine (by simpa using (Bool.and_eq_true_iff.1 digit).2)
    have less : c.toNat - 48 < 10 := by omega
    simp [less, digit]
  · simp [digit]
  · simp [digit]
  · simp [digit]

/-- The digits of a base are digits of greater ones. -/
lemma isSome_digitOf?_of_le {c : Char} (le : b ≤ k) (digit : (digitOf? b c).isSome) :
    (digitOf? k c).isSome := by
  unfold digitOf? at digit ⊢
  split at digit
  · split_ifs at digit with less
    · rw [if_pos (Nat.lt_of_lt_of_le less le)]
      rfl
    · cases digit
  · cases digit

/-- Digits are read as a number if and only if all of them are digits of the base, and the number is
their place value. -/
lemma numberFrom?_iff : ∀ {ds : List Char} {m n : Nat}, numberFrom? b m ds = some n ↔
    (∀ d ∈ ds, (digitOf? b d).isSome) ∧ n = m * b ^ ds.length + placeValue b ds
  | [], m, n => by
      have nothing : m * b ^ ([] : List Char).length + placeValue b [] = m := Nat.mul_one m
      rw [nothing, numberFrom?, Option.some.injEq, eq_comm]
      exact (and_iff_right (List.forall_mem_nil _)).symm
  | d :: ds, m, n => by
      rw [numberFrom?, List.forall_mem_cons]
      cases digit : (digitOf? b d).isSome with
      | false =>
          rw [Option.isSome_eq_false_iff, Option.isNone_iff_eq_none] at digit
          simp [digit]
      | true =>
          rw [digitOf?_eq_some digit]
          dsimp only
          rw [numberFrom?_iff, placeValue_cons, List.length_cons, Nat.pow_succ', Nat.add_mul,
            Nat.mul_assoc, Nat.add_assoc]
          simp

/-- **The number that digits are read as is the sum of their values.** -/
theorem numberOf?_iff : numberOf? b ds = some n ↔
    ds ≠ [] ∧ (∀ d ∈ ds, (digitOf? b d).isSome) ∧ n = placeValue b ds := by
  rw [numberOf?]
  cases ds with
  | nil => simp
  | cons d ds => simp [numberFrom?_iff]

/-- Only zeros stand for zero. -/
lemma placeValue_eq_zero_iff (base : 0 < b) (digits : ∀ d ∈ ds, d.isDigit = true) :
    placeValue b ds = 0 ↔ ∀ d ∈ ds, d = '0' := by
  induction ds with
  | nil => exact iff_of_true rfl (List.forall_mem_nil _)
  | cons d ds ih =>
      obtain ⟨digit, digits⟩ := List.forall_mem_cons.1 digits
      have value : digitValue? d = some (d.toNat - 48) := if_pos digit
      have low : 48 ≤ d.toNat := of_decide_eq_true (Bool.and_eq_true_iff.1 digit).1
      have zero : (digitValue? d).getD 0 = 0 ↔ d = '0' := by
        rw [value, Option.getD_some, ← Char.toNat_inj]
        change d.toNat - 48 = 0 ↔ d.toNat = 48
        omega
      rw [placeValue_cons, Nat.add_eq_zero_iff, Nat.mul_eq_zero, ih digits, List.forall_mem_cons,
        or_iff_left (Nat.pow_pos base).ne', zero]

/-! ## The digits of a number -/

/-- The character that is written for a digit is read as the digit. -/
lemma digitOf?_digitChar (digit : n < b) (small : b ≤ 16) :
    digitOf? b (Nat.digitChar n) = some n := by
  have value : digitValue? (Nat.digitChar n) = some n := by
    have : n < 16 := by omega
    interval_cases n <;> decide
  rw [digitOf?, value]
  exact if_pos digit

/-- Digits may be read up to some place, and from there with the number that was read. -/
lemma numberFrom?_append : ∀ {cs : List Char} {m : Nat},
    numberFrom? b m (cs ++ ds) = (numberFrom? b m cs).bind fun n => numberFrom? b n ds
  | [], m => rfl
  | c :: cs, m => by
      rw [List.cons_append, numberFrom?, numberFrom?]
      cases digitOf? b c with
      | none => rfl
      | some d => exact numberFrom?_append

lemma numberFrom?_zeros (base : 0 < b) : ∀ {k m : Nat},
    numberFrom? b m (List.replicate k '0') = some (m * b ^ k)
  | 0, m => by rw [List.replicate_zero, numberFrom?, Nat.pow_zero, Nat.mul_one]
  | k + 1, m => by
      have zero : digitOf? b '0' = some 0 := if_pos base
      rw [List.replicate_succ, numberFrom?, zero]
      dsimp only
      rw [numberFrom?_zeros base, Nat.add_zero, Nat.pow_succ', Nat.mul_assoc]

/-- The digits of a number are read as the number, behind whatever was read before. -/
lemma numberFrom?_toDigits (base : 1 < b) (small : b ≤ 16) (n m : Nat) :
    numberFrom? b m (Nat.toDigits b n)
      = some (m * b ^ (Nat.toDigits b n).length + n) := by
  induction n using Nat.strongRecOn generalizing m with
  | ind n ih =>
      rw [Nat.toDigits_eq_if base]
      split_ifs with digit
      · rw [numberFrom?, digitOf?_digitChar digit small]
        simp [numberFrom?]
      · have less : n / b < n := Nat.div_lt_self (by omega) base
        rw [numberFrom?_append, ih _ less, Option.bind_some, numberFrom?,
          digitOf?_digitChar (Nat.mod_lt n (by omega)) small]
        simp only [numberFrom?, List.length_append, List.length_singleton, Nat.pow_succ]
        have split := Nat.div_add_mod' n b
        rw [Nat.add_mul, Nat.add_assoc, split, Nat.mul_assoc]

/-- **The digits of a number are read as the number.** -/
theorem numberOf?_toDigits (base : 1 < b) (small : b ≤ 16) (n : Nat) :
    numberOf? b (Nat.toDigits b n) = some n := by
  rw [numberOf?, if_neg (by simp [Nat.toDigits_ne_nil]), numberFrom?_toDigits base small,
    Nat.zero_mul, Nat.zero_add]

/-- The place value of the digits of a number is the number. -/
lemma placeValue_toDigits (base : 1 < b) (small : b ≤ 16) (n : Nat) :
    placeValue b (Nat.toDigits b n) = n :=
  (numberOf?_iff.1 (numberOf?_toDigits base small n)).2.2.symm

/-- Zeros in front change nothing. -/
lemma numberFrom?_zeros_append (base : 0 < b) :
    numberFrom? b 0 (List.replicate k '0' ++ cs) = numberFrom? b 0 cs := by
  rw [numberFrom?_append, numberFrom?_zeros base, Nat.zero_mul, Option.bind_some]

/-- Zeros behind multiply. -/
lemma numberFrom?_append_zeros (base : 0 < b) (h : numberFrom? b m cs = some n) :
    numberFrom? b m (cs ++ List.replicate k '0') = some (n * b ^ k) := by
  rw [numberFrom?_append, h, Option.bind_some, numberFrom?_zeros base]

/-! ## Decimal digits -/

lemma isDigit_toDigits (n : Nat) : ∀ c ∈ Nat.toDigits 10 n, c.isDigit = true :=
  fun _ => Nat.isDigit_of_mem_toDigits (by decide) (by decide)

/-- The digits of a positive number do not start with a zero. -/
lemma head?_toDigits_ne_zero (n : Nat) (positive : 0 < n) :
    (Nat.toDigits 10 n).head? ≠ some '0' := by
  induction n using Nat.strongRecOn with
  | ind n ih =>
      rw [Nat.toDigits_eq_if (by decide)]
      split_ifs with digit
      · interval_cases n <;> decide
      · have less : n / 10 < n := Nat.div_lt_self positive (by decide)
        have more := ih _ less (Nat.div_pos (by omega) (by decide))
        cases front : Nat.toDigits 10 (n / 10) with
        | nil => exact absurd front Nat.toDigits_ne_nil
        | cons c cs => rwa [front] at more

end DocAnnotations.Text
