import DocAnnotations.Proofs.Decimal.Numeral
import DocAnnotations.Proofs.Decimal.Shortest
import DocAnnotations.Value.Printer

/-!
# Decimals as texts

A `DecimalText` is an optional minus sign, digits, and a fraction or an exponent or both.

**Texts of decimals.**  Such a text is one of those that a numeral is read from, without a sign
(`unsignedText`), behind a minus sign or none.  `Numeral.ofChars?` gets the digits and the exponent
from it (**`ofChars?_chars`**).

**Texts of layouts.**  A `Layout` without plus signs writes such texts, in scientific form or with a
point among the digits.  The digits that it writes stand for the decimal that it was given, zeros
that it adds included (**`exists_decimalText`**).
-/

namespace DocAnnotations.Decimal

open Text

/-! ## Texts of decimals -/

/-- A decimal as it is written. -/
structure DecimalText where
  negative : Bool
  whole : List Char
  /-- The digits behind the point; without them there is no point. -/
  fraction : List Char
  exponent : Option Int
  whole_ne_nil : whole ≠ []
  isDigit_whole : ∀ c ∈ whole, c.isDigit = true
  isDigit_fraction : ∀ c ∈ fraction, c.isDigit = true
  /-- There is a point or an exponent, so the decimal is no integer. -/
  marked : fraction ≠ [] ∨ exponent.isSome

namespace DecimalText

variable (t : DecimalText)

/-- What stands behind the whole digits and their fraction. -/
def tail : List Char :=
  match t.exponent with
  | none => []
  | some e => 'e' :: integerChars e

/-- The digits with the point among them. -/
def mantissa : List Char :=
  t.whole ++ if t.fraction = [] then [] else '.' :: t.fraction

/-- The text without its sign. -/
def unsigned : List Char := t.mantissa ++ t.tail

/-- The text of the decimal. -/
def chars : List Char := (if t.negative then ['-'] else []) ++ t.unsigned

variable {t}

/-- Behind its digits a written decimal has an exponent, or nothing, which counts as zero. -/
lemma isExponent_tail : IsExponent t.tail (t.exponent.getD 0) := by
  rw [tail]
  cases t.exponent with
  | none => exact .nothing
  | some e =>
      have value := placeValue_toDigits (b := 10) (by decide) (by decide) e.natAbs
      have written : ∀ sign, IsSign sign → IsExponent ('e' :: (sign ++ Nat.toDigits 10 e.natAbs))
          (if sign = ['-'] then -(e.natAbs : Int) else e.natAbs) := by
        intro sign signed
        have power := IsExponent.power (.inl rfl) signed Nat.toDigits_ne_nil
          (isDigit_toDigits e.natAbs)
        rwa [value] at power
      change IsExponent ('e' :: integerChars e) e
      rw [integerChars]
      split_ifs with negative
      · have same : -(e.natAbs : Int) = e := by omega
        have signed := written ['-'] (.inr (.inr rfl))
        rwa [if_pos rfl, same] at signed
      · have same : (e.natAbs : Int) = e := by omega
        have unsigned := written [] (.inl rfl)
        rwa [if_neg (by decide), same] at unsigned

variable (t) in
/-- The decimal without its sign. -/
def unsignedText : UnsignedText where
  whole := t.whole
  fraction := if t.fraction = [] then none else some t.fraction
  exponent := t.tail
  power := t.exponent.getD 0
  isDigit_whole := t.isDigit_whole
  isDigit_fraction := by
    split_ifs
    · exact List.forall_mem_nil _
    · exact t.isDigit_fraction
  digits_ne_nil := List.append_ne_nil_of_left_ne_nil t.whole_ne_nil _
  isExponent := isExponent_tail

lemma getD_fraction : t.unsignedText.fraction.getD [] = t.fraction := by
  rw [unsignedText]
  split_ifs with pointless
  · exact pointless.symm
  · rfl

/-- A written decimal is a minus sign, or none, in front of a decimal without a sign. -/
lemma chars_eq : t.chars = (if t.negative then ['-'] else []) ++ t.unsignedText.chars := by
  rw [chars, unsigned, mantissa, UnsignedText.chars, UnsignedText.mantissa, unsignedText]
  split_ifs <;> rfl

/-- The numeral that the text is. -/
lemma ofChars?_chars {n : Nat} (value : numberFrom? 10 0 (t.whole ++ t.fraction) = some n) :
    Numeral.ofChars? t.chars
      = some ⟨t.negative, n, t.exponent.getD 0 - t.fraction.length⟩ := by
  have number : placeValue 10 t.unsignedText.digits = n := by
    rw [UnsignedText.digits, getD_fraction]
    exact ((numberFrom?_iff.1 value).2.trans (by simp [unsignedText])).symm
  rw [chars_eq, UnsignedText.ofChars?_chars (isSign_minus t.negative), UnsignedText.numeral,
    number, getD_fraction, minus_beq]
  rfl

end DecimalText

/-! ## Texts of layouts -/

section

variable {l : Layout} {n : Nat} {e : Int}

/-- The text is that of the numeral: its digits and its exponent stand for the same decimal. -/
def DecimalText.StandsFor (t : DecimalText) (n : Nat) (e : Int) : Prop :=
  ∃ k : Nat, numberFrom? 10 0 (t.whole ++ t.fraction) = some (n * 10 ^ k) ∧
    t.exponent.getD 0 - t.fraction.length = e - k

lemma isDigit_zeros (k : Nat) : ∀ c ∈ zeros k, c.isDigit = true := by
  intro c h
  rw [List.eq_of_mem_replicate h]
  decide

lemma numberFrom?_digits (n : Nat) : numberFrom? 10 0 (Nat.toDigits 10 n) = some n := by
  rw [numberFrom?_toDigits (by decide) (by decide), Nat.zero_mul, Nat.zero_add]

/-- In scientific form, a point follows the first digit only if there are further digits. -/
lemma scientific_cons (d : Char) (ds : List Char) (leading : Int) :
    scientific false (d :: ds) leading
      = d :: (if ds = [] then [] else '.' :: ds) ++ 'e' :: integerChars leading := by
  have signed : integerChars leading
      = (if leading < 0 then ['-'] else []) ++ Nat.toDigits 10 leading.natAbs := by
    rw [integerChars]
    split_ifs <;> rfl
  rw [scientific, signed]
  cases ds with
  | nil => simp
  | cons d' ds => simp

/-- The form with an exponent: one digit, the others behind the point. -/
lemma exists_scientific (negative : Bool) (n : Nat) (e : Int) :
    ∃ t : DecimalText, t.negative = negative ∧ t.StandsFor n e ∧
      t.chars = (if negative then ['-'] else []) ++
        scientific false (Nat.toDigits 10 n) (e + (Nat.toDigits 10 n).length - 1) := by
  have digits := isDigit_toDigits n
  have value := numberFrom?_digits n
  cases front : Nat.toDigits 10 n with
  | nil => exact absurd front Nat.toDigits_ne_nil
  | cons d ds =>
      rw [front] at digits value
      obtain ⟨digit, others⟩ := List.forall_mem_cons.1 digits
      refine ⟨⟨negative, [d], ds, some (e + (d :: ds).length - 1), by simp, by simpa using digit,
        others, .inr rfl⟩, rfl, ⟨0, ?_, ?_⟩, ?_⟩
      · simpa using value
      · simp
        omega
      · rw [scientific_cons]
        simp [DecimalText.chars, DecimalText.unsigned, DecimalText.mantissa, DecimalText.tail]

/-- The decimal with the given digits before and behind its point. -/
lemma exists_pointed (negative : Bool) {whole fraction : List Char} (nonempty : whole ≠ [])
    (pointed : fraction ≠ []) (digits : ∀ c ∈ whole, c.isDigit = true)
    (digits' : ∀ c ∈ fraction, c.isDigit = true) :
    ∃ t : DecimalText, t.negative = negative ∧ t.whole = whole ∧ t.fraction = fraction ∧
      t.exponent = none ∧
      t.chars = (if negative then ['-'] else []) ++ (whole ++ '.' :: fraction) := by
  refine ⟨⟨negative, whole, fraction, none, nonempty, digits, digits', .inl pointed⟩, rfl, rfl,
    rfl, rfl, ?_⟩
  simp [DecimalText.chars, DecimalText.unsigned, DecimalText.mantissa, DecimalText.tail, pointed]

/-- The positional form: zeros are added behind, or in front, or the point stands among the
digits. -/
lemma exists_positional (negative : Bool) (n : Nat) (e : Int) :
    ∃ t : DecimalText, t.negative = negative ∧ t.StandsFor n e ∧
      t.chars = (if negative then ['-'] else []) ++ positional (Nat.toDigits 10 n) e := by
  have digits := isDigit_toDigits n
  have value := numberFrom?_digits n
  have nonempty : Nat.toDigits 10 n ≠ [] := Nat.toDigits_ne_nil
  generalize Nat.toDigits 10 n = ds at digits value nonempty
  have pointed := @exists_pointed negative
  unfold positional
  dsimp only
  -- only the form of the digits is to be split on
  generalize (if negative then ['-'] else []) = front at pointed ⊢
  split_ifs with large inside
  · obtain ⟨t, sign, whole, fraction, exponent, chars⟩ := pointed
      (show ds ++ zeros e.toNat ≠ [] by simp [nonempty]) (show ['0'] ≠ [] by simp)
      (by simpa [or_imp, forall_and] using ⟨digits, isDigit_zeros _⟩) (isDigit_zeros 1)
    refine ⟨t, sign, ⟨e.toNat + 1, ?_, ?_⟩, by simp [chars]⟩
    · have zeros : ds ++ zeros e.toNat ++ ['0'] = ds ++ List.replicate (e.toNat + 1) '0' := by
        rw [List.replicate_succ', List.append_assoc]
        rfl
      rw [whole, fraction, zeros]
      exact numberFrom?_append_zeros (by decide) value
    · simp [exponent, fraction]
      omega
  · obtain ⟨t, sign, whole, fraction, exponent, chars⟩ := pointed
      (show ds.take (ds.length - (-e).toNat) ≠ [] by simp [nonempty]; omega)
      (show ds.drop (ds.length - (-e).toNat) ≠ [] by simp; omega)
      (fun c h => digits c (List.mem_of_mem_take h)) (fun c h => digits c (List.mem_of_mem_drop h))
    refine ⟨t, sign, ⟨0, ?_, ?_⟩, chars⟩
    · rw [whole, fraction, List.take_append_drop, value]
      simp
    · simp [exponent, fraction]
      omega
  · obtain ⟨t, sign, whole, fraction, exponent, chars⟩ := pointed
      (show ['0'] ≠ [] by simp) (show zeros ((-e).toNat - ds.length) ++ ds ≠ [] by simp [nonempty])
      (isDigit_zeros 1)
      (by simpa [or_imp, forall_and] using ⟨isDigit_zeros _, digits⟩)
    refine ⟨t, sign, ⟨0, ?_, ?_⟩, by simp [chars]⟩
    · have zeros : ['0'] ++ (zeros ((-e).toNat - ds.length) ++ ds)
          = List.replicate ((-e).toNat - ds.length + 1) '0' ++ ds := by
        rw [List.replicate_succ]
        rfl
      rw [whole, fraction, zeros, numberFrom?_zeros_append (by decide), value]
      simp
    · simp [exponent, fraction, zeros]
      omega

/-- **What a layout without plus signs writes is a decimal**, and its digits stand for the decimal
that is written. -/
theorem exists_decimalText (plain : l.plusSign = false) (negative : Bool) (n : Nat) (e : Int) :
    ∃ t : DecimalText, t.negative = negative ∧ t.StandsFor n e ∧
      t.chars = (if negative then ['-'] else []) ++ l.write n e := by
  have written : l.write n e = positional (Nat.toDigits 10 n) e ∨
      l.write n e = scientific false (Nat.toDigits 10 n) (e + (Nat.toDigits 10 n).length - 1) := by
    rw [Layout.write, plain]
    split_ifs
    · exact .inl rfl
    · exact .inr rfl
  rcases written with written | written
  · rw [written]
    exact exists_positional negative n e
  · rw [written]
    exact exists_scientific negative n e

end

end DocAnnotations.Decimal
