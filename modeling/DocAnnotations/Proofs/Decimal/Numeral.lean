import DocAnnotations.Decimal.Reading
import DocAnnotations.Proofs.Text.Digit
import Mathlib.Data.List.TakeWhile

/-!
# Decimals as they may be written

A decimal without its sign has digits with at most one point before, among or behind them, and an
optional exponent.

**Parts of a text.**  Signs, exponents and fractions are each given as a predicate on the characters
(`IsSign`, `IsExponent`) or as what is taken off the front (`takeFraction`), and each section says
that the reader takes off just that part, if the right characters follow.

**Unsigned decimals.**  `UnsignedText` has the parts with what is asked of them, so that there are
no others to consider.  **`Numeral.ofChars?_iff`**: exactly these texts, behind an optional sign,
are read as numerals; the digits on both sides of the point are those of one number, which the
places behind the point and the exponent scale.
-/

namespace DocAnnotations.Decimal

open Text

/-- Digits end where no digit follows. -/
lemma takeWhile_isDigit {ds rest : List Char} (digits : ∀ c ∈ ds, c.isDigit = true)
    (stop : ∀ c ∈ rest.head?, c.isDigit = false) :
    (ds ++ rest).takeWhile Char.isDigit = ds ∧ (ds ++ rest).dropWhile Char.isDigit = rest := by
  rw [List.takeWhile_append_of_pos digits, List.dropWhile_append_of_pos digits]
  cases rest with
  | nil => simp
  | cons c cs => simp [stop c rfl]

/-! ## Signs -/

/-- A sign in front of digits, or none. -/
def IsSign (sign : List Char) : Prop := sign = [] ∨ sign = ['+'] ∨ sign = ['-']

variable {sign cs : List Char} {e : Int}

/-- A sign consists of a plus or a minus, if of anything. -/
lemma IsSign.mem {c : Char} (signed : IsSign sign) (mem : c ∈ sign) : c = '+' ∨ c = '-' := by
  rcases signed with rfl | rfl | rfl
  · cases mem
  · exact .inl (List.mem_singleton.1 mem)
  · exact .inr (List.mem_singleton.1 mem)

lemma isSign_minus (negative : Bool) : IsSign (if negative then ['-'] else []) := by
  cases negative
  · exact .inl rfl
  · exact .inr (.inr rfl)

lemma minus_beq (negative : Bool) :
    ((if negative then ['-'] else []) == ['-']) = negative := by
  cases negative <;> rfl

/-- A sign is taken off a text that does not begin with another sign. -/
lemma takeSign_append (signed : IsSign sign) (unsigned : ∀ c ∈ cs.head?, c ≠ '+' ∧ c ≠ '-') :
    takeSign (sign ++ cs) = (sign == ['-'], cs) := by
  rcases signed with rfl | rfl | rfl
  · cases cs with
    | nil => rfl
    | cons c cs =>
        obtain ⟨plus, minus⟩ := unsigned c rfl
        simp [takeSign, plus, minus]
  · rfl
  · rfl

/-- Each text is a sign, or none, followed by the text that is left when it is taken off. -/
lemma exists_takeSign (cs : List Char) :
    ∃ sign rest, IsSign sign ∧ cs = sign ++ rest ∧ takeSign cs = (sign == ['-'], rest) := by
  unfold takeSign
  split
  · exact ⟨['-'], _, .inr (.inr rfl), rfl, rfl⟩
  · exact ⟨['+'], _, .inr (.inl rfl), rfl, rfl⟩
  · exact ⟨[], cs, .inl rfl, rfl, rfl⟩

lemma apart_of_isDigit {c : Char} (digit : c.isDigit = true) : c ≠ '+' ∧ c ≠ '-' := by
  constructor <;>
  · rintro rfl
    cases digit

/-! ## Exponents -/

/-- An exponent and its value: nothing, or a letter, an optional sign and digits. -/
inductive IsExponent : List Char → Int → Prop
  | nothing : IsExponent [] 0
  | power {letter : Char} {sign ds : List Char} (marked : letter = 'e' ∨ letter = 'E')
      (signed : IsSign sign) (nonempty : ds ≠ []) (digits : ∀ d ∈ ds, d.isDigit = true) :
      IsExponent (letter :: (sign ++ ds))
        (if sign = ['-'] then -(placeValue 10 ds : Int) else placeValue 10 ds)

/-- The number that decimal digits are read as. -/
lemma numberOf?_decimal {ds : List Char} {n : Nat} : numberOf? 10 ds = some n ↔
    ds ≠ [] ∧ (∀ d ∈ ds, d.isDigit = true) ∧ n = placeValue 10 ds := by
  simp only [numberOf?_iff, isSome_digitOf?_iff]

/-- **Exactly the exponents are read as such.** -/
theorem exponent?_iff : exponent? cs = some e ↔ IsExponent cs e := by
  constructor
  · intro read
    cases cs with
    | nil =>
        cases read
        exact .nothing
    | cons letter cs =>
        rw [exponent?] at read
        split_ifs at read with marked
        rw [Bool.or_eq_true, beq_iff_eq, beq_iff_eq] at marked
        obtain ⟨sign, digits, signed, rfl, taken⟩ := exists_takeSign cs
        simp only [taken] at read
        cases number : numberOf? 10 digits with
        | none =>
            rw [number] at read
            cases read
        | some n =>
            obtain ⟨nonempty, all, rfl⟩ := numberOf?_decimal.1 number
            simp only [number, beq_iff_eq] at read
            cases read
            exact .power marked signed nonempty all
  · intro written
    cases written with
    | nothing => rfl
    | @power letter sign ds marked signed nonempty digits =>
        have first : ∀ c ∈ ds.head?, c ≠ '+' ∧ c ≠ '-' := fun c front =>
          apart_of_isDigit (digits c (List.mem_of_head? front))
        have letters : (letter == 'e' || letter == 'E') = true := by
          rwa [Bool.or_eq_true, beq_iff_eq, beq_iff_eq]
        rw [exponent?, if_pos letters, takeSign_append signed first]
        simp only [numberOf?_decimal.2 ⟨nonempty, digits, rfl⟩, beq_iff_eq]
        rfl

/-- An exponent begins with its mark, if there is an exponent. -/
lemma IsExponent.head? (h : IsExponent cs e) : ∀ c ∈ cs.head?, c = 'e' ∨ c = 'E' := by
  cases h with
  | nothing => rintro c ⟨⟩
  | power marked =>
      rintro c ⟨⟩
      exact marked

lemma IsExponent.mem (h : IsExponent cs e) {c : Char} (mem : c ∈ cs) :
    c.isDigit = true ∨ c = 'e' ∨ c = 'E' ∨ c = '+' ∨ c = '-' := by
  cases h with
  | nothing => cases mem
  | power marked signed _ digits =>
      rcases List.mem_cons.1 mem with rfl | mem
      · tauto
      · rcases List.mem_append.1 mem with mem | mem
        · exact .inr (.inr (.inr (signed.mem mem)))
        · exact .inl (digits c mem)

/-! ## Fractions -/

/-- The digits behind a point, if there is one, and the rest. -/
def takeFraction : List Char → Option (List Char) × List Char
  | '.' :: cs => (some (cs.takeWhile Char.isDigit), cs.dropWhile Char.isDigit)
  | cs => (none, cs)

/-- A fraction is taken off where no digit and no point follows it. -/
lemma takeFraction_append {fraction : Option (List Char)}
    (digits : ∀ c ∈ fraction.getD [], c.isDigit = true)
    (stop : ∀ c ∈ cs.head?, c.isDigit = false ∧ c ≠ '.') :
    takeFraction (fraction.elim [] ('.' :: ·) ++ cs) = (fraction, cs) := by
  cases fraction with
  | some ds =>
      obtain ⟨taken, left⟩ := takeWhile_isDigit digits fun c front => (stop c front).1
      exact Prod.ext (congrArg some taken) left
  | none =>
      cases cs with
      | nil => rfl
      | cons c cs =>
          have apart := (stop c rfl).2
          simp [takeFraction, apart]

/-- Each text is a fraction, or none, followed by the text that is left when it is taken off. -/
lemma takeFraction_spec (cs : List Char) :
    cs = (takeFraction cs).1.elim [] ('.' :: ·) ++ (takeFraction cs).2 ∧
      ∀ c ∈ (takeFraction cs).1.getD [], c.isDigit = true := by
  unfold takeFraction
  split
  · exact ⟨congrArg _ List.takeWhile_append_dropWhile.symm, fun c => List.mem_takeWhile_imp⟩
  · exact ⟨rfl, List.forall_mem_nil _⟩

/-- A numeral is read part by part. -/
lemma Numeral.ofChars?_eq {rest tail : List Char} {negative : Bool} {fraction : Option (List Char)}
    (taken : takeSign cs = (negative, rest))
    (split : takeFraction (rest.dropWhile Char.isDigit) = (fraction, tail)) :
    Numeral.ofChars? cs =
      (numberOf? 10 (rest.takeWhile Char.isDigit ++ fraction.getD [])).bind fun digits =>
        (exponent? tail).map fun power =>
          ⟨negative, digits, power - (fraction.getD []).length⟩ := by
  rw [Numeral.ofChars?, taken]
  dsimp only
  unfold takeFraction at split
  generalize rest.dropWhile Char.isDigit = behind at split ⊢
  split at split
  · cases split
    simp only [Option.getD_some]
    cases numberOf? 10 _ <;> cases exponent? _ <;> rfl
  · cases split
    simp only [Option.getD_none]
    cases numberOf? 10 _ <;> cases exponent? _ <;> rfl

/-! ## Unsigned decimals -/

/-- A decimal without a sign. -/
structure UnsignedText where
  whole : List Char
  /-- The digits behind the point, if there is one. -/
  fraction : Option (List Char)
  exponent : List Char
  power : Int
  isDigit_whole : ∀ c ∈ whole, c.isDigit = true
  isDigit_fraction : ∀ c ∈ fraction.getD [], c.isDigit = true
  digits_ne_nil : whole ++ fraction.getD [] ≠ []
  isExponent : IsExponent exponent power

namespace UnsignedText

variable (t : UnsignedText)

/-- All digits of the decimal. -/
def digits : List Char := t.whole ++ t.fraction.getD []

/-- The digits with the point among them. -/
def mantissa : List Char := t.whole ++ t.fraction.elim [] ('.' :: ·)

/-- The text of the decimal. -/
def chars : List Char := t.mantissa ++ t.exponent

/-- The numeral of the decimal behind a sign. -/
def numeral (negative : Bool) : Numeral :=
  ⟨negative, placeValue 10 t.digits, t.power - (t.fraction.getD []).length⟩

variable {t}

lemma isDigit_digits : ∀ c ∈ t.digits, c.isDigit = true := by
  intro c mem
  rcases List.mem_append.1 mem with mem | mem
  · exact t.isDigit_whole c mem
  · exact t.isDigit_fraction c mem

/-- All characters of a decimal. -/
lemma mem_chars {c : Char} (mem : c ∈ t.chars) :
    c.isDigit = true ∨ c = '.' ∨ c = 'e' ∨ c = 'E' ∨ c = '+' ∨ c = '-' := by
  rw [chars, mantissa, List.mem_append, List.mem_append] at mem
  rcases mem with (mem | mem) | mem
  · exact .inl (t.isDigit_whole c mem)
  · have digits := t.isDigit_fraction
    cases fraction : t.fraction with
    | none =>
        rw [fraction] at mem
        cases mem
    | some ds =>
        rw [fraction] at mem digits
        rcases List.mem_cons.1 mem with rfl | mem
        · exact .inr (.inl rfl)
        · exact .inl (digits c mem)
  · exact (t.isExponent.mem mem).imp_right .inr

/-- What follows the digits of a decimal is no digit and no point. -/
lemma stop_exponent : ∀ c ∈ t.exponent.head?, c.isDigit = false ∧ c ≠ '.' := by
  intro c front
  rcases t.isExponent.head? c front with rfl | rfl <;> decide

/-- A decimal starts with a digit or the point. -/
lemma exists_chars : ∃ c cs, t.chars = c :: cs ∧ (c.isDigit = true ∨ c = '.') := by
  rw [chars, mantissa]
  cases whole : t.whole with
  | cons c cs => exact ⟨c, _, rfl, .inl (t.isDigit_whole c (whole ▸ List.mem_cons_self))⟩
  | nil =>
      cases fraction : t.fraction with
      | none =>
          have nonempty := t.digits_ne_nil
          rw [whole, fraction] at nonempty
          exact absurd rfl nonempty
      | some ds => exact ⟨'.', _, rfl, .inr rfl⟩

/-- A decimal has a digit somewhere, before the point or behind it. -/
lemma chars_ne_nil (t : UnsignedText) : t.chars ≠ [] := by
  obtain ⟨c, cs, front, -⟩ := t.exists_chars
  rw [front]
  exact List.cons_ne_nil c cs

/-- The digits in front of the point, and what is behind them. -/
lemma span_chars : t.chars.takeWhile Char.isDigit = t.whole ∧
    t.chars.dropWhile Char.isDigit = t.fraction.elim [] ('.' :: ·) ++ t.exponent := by
  rw [chars, mantissa, List.append_assoc]
  refine takeWhile_isDigit t.isDigit_whole ?_
  cases t.fraction with
  | none => exact fun c front => (stop_exponent c front).1
  | some ds =>
      rintro c ⟨⟩
      decide

/-- A decimal behind a sign is read as its numeral, which is negative if the sign is a minus. -/
lemma ofChars?_chars (signed : IsSign sign) :
    Numeral.ofChars? (sign ++ t.chars) = some (t.numeral (sign == ['-'])) := by
  have unsigned : ∀ c ∈ t.chars.head?, c ≠ '+' ∧ c ≠ '-' := by
    obtain ⟨c, cs, front, digit | rfl⟩ := t.exists_chars
    · rw [front]
      rintro _ ⟨⟩
      exact apart_of_isDigit digit
    · rw [front]
      rintro _ ⟨⟩
      decide
  obtain ⟨taken, left⟩ := t.span_chars
  have number := numberOf?_decimal.2 ⟨t.digits_ne_nil, t.isDigit_digits, rfl⟩
  have exponent := exponent?_iff.2 t.isExponent
  have split : takeFraction (t.chars.dropWhile Char.isDigit) = (t.fraction, t.exponent) := by
    rw [left, takeFraction_append t.isDigit_fraction t.stop_exponent]
  rw [Numeral.ofChars?_eq (takeSign_append signed unsigned) split, taken, number, exponent]
  rfl

end UnsignedText

/-- **Exactly the decimals are read as numerals.** -/
theorem Numeral.ofChars?_iff {x : Numeral} : Numeral.ofChars? cs = some x ↔
    ∃ sign, ∃ t : UnsignedText, IsSign sign ∧ cs = sign ++ t.chars ∧
      x = t.numeral (sign == ['-']) := by
  constructor
  · intro read
    obtain ⟨sign, rest, signed, rfl, taken⟩ := exists_takeSign cs
    have front := rest.takeWhile_append_dropWhile (p := Char.isDigit)
    have digits : ∀ c ∈ rest.takeWhile Char.isDigit, c.isDigit = true :=
      fun c => List.mem_takeWhile_imp
    obtain ⟨behind, places⟩ := takeFraction_spec (rest.dropWhile Char.isDigit)
    rw [Numeral.ofChars?_eq taken Prod.mk.eta.symm, Option.bind_eq_some_iff] at read
    obtain ⟨n, number, read⟩ := read
    obtain ⟨power, exponent, rfl⟩ := Option.map_eq_some_iff.1 read
    obtain ⟨nonempty, -, rfl⟩ := numberOf?_decimal.1 number
    refine ⟨sign, ⟨_, _, _, power, digits, places, nonempty, exponent?_iff.1 exponent⟩, signed, ?_,
      rfl⟩
    rw [UnsignedText.chars, UnsignedText.mantissa, List.append_assoc, ← behind, front]
  · rintro ⟨sign, t, signed, rfl, rfl⟩
    exact t.ofChars?_chars signed

end DocAnnotations.Decimal
