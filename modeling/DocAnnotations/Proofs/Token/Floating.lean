import DocAnnotations.Proofs.Decimal.Text
import DocAnnotations.Proofs.Token.Number

/-!
# Floating literals as tokens

A floating literal is a decimal with an optional minus sign in front and an optional suffix behind;
a point, an exponent or the suffix sets it apart from whole numbers (`FloatingText`).

**Cutting floating literals.**  The lexer decides on a point by the two characters behind it, and
never looks at the digits before.

**Floating literals.**  **`FloatingText.isLexeme`**: each floating literal is one token of the
floating kind.  **`exists_floatingText`**: a token of this kind that is a decimal once its suffix is
taken off is a floating literal.

**Written decimals.**  The decimals that the printer writes are floating literals, with the suffix
that it adds to those of single precision.
-/

namespace DocAnnotations

open Text Decimal

variable {c : Char} {cs : List Char} {kind : TokenKind}

/-- A lexeme is of one kind. -/
lemma IsLexeme.kind_eq {other : TokenKind} (h : IsLexeme kind cs) (h' : IsLexeme other cs) :
    kind = other := by
  obtain ⟨c, w, rfl, -, -, scan⟩ := h
  obtain ⟨_, _, same, -, -, scan'⟩ := h'
  cases same
  rw [scan] at scan'
  exact congrArg Prod.fst (Except.ok.inj scan')

/-! ## Cutting floating literals -/

namespace NumberText

variable {suffix : Option Char} {t : UnsignedText} {e : Int}

/-- The suffixes of floating numbers are the two letters in either case. -/
lemma isFloatSuffix_iff : isFloatSuffix c = true ↔ c = 'f' ∨ c = 'F' ∨ c = 'd' ∨ c = 'D' := by
  simp only [isFloatSuffix, Bool.or_eq_true, beq_iff_eq, or_assoc]

/-- A point belongs to the number before an exponent, a suffix or the end. -/
lemma dotContinues_tail (exponent : IsExponent cs e)
    (floating : ∀ c ∈ suffix, isFloatSuffix c = true) :
    dotContinues (cs ++ suffix.toList) = true := by
  cases exponent with
  | nothing =>
      cases suffix with
      | none => rfl
      | some c => rcases isFloatSuffix_iff.1 (floating c rfl) with rfl | rfl | rfl | rfl <;> rfl
  | @power letter sign ds marked signed nonempty digits =>
      obtain ⟨d, ds, rfl⟩ := List.exists_cons_of_ne_nil nonempty
      have digit := digits d List.mem_cons_self
      rcases signed with rfl | rfl | rfl <;> rcases marked with rfl | rfl <;>
        simp [dotContinues, digit]

/-- No digit and no point starts an exponent or a suffix. -/
lemma stop_tail (floating : ∀ c ∈ suffix, isFloatSuffix c = true) :
    ∀ c ∈ (t.exponent ++ suffix.toList).head?, c.isDigit = false ∧ c ≠ '.' := by
  intro c front
  cases exponent : t.exponent with
  | cons letter cs =>
      rw [exponent] at front
      exact t.stop_exponent c (exponent ▸ front)
  | nil =>
      cases suffix with
      | none =>
          rw [exponent] at front
          cases front
      | some c =>
          rw [exponent] at front
          cases front
          rcases isFloatSuffix_iff.1 (floating c rfl) with rfl | rfl | rfl | rfl <;> decide

/-- The digits of a decimal, with the point in them, are split off in front of the exponent and the
suffix. -/
lemma splitDigits_chars (floating : ∀ c ∈ suffix, isFloatSuffix c = true) :
    splitDigits (t.chars ++ suffix.toList) = (t.mantissa, t.exponent ++ suffix.toList) := by
  have stop := splitDigits_stop (stop_tail (t := t) floating)
  rw [UnsignedText.chars, UnsignedText.mantissa, List.append_assoc, List.append_assoc,
    splitDigits_digits t.isDigit_whole]
  cases fraction : t.fraction with
  | none => rw [Option.elim_none, List.nil_append, stop]
  | some ds =>
      have digits := t.isDigit_fraction
      rw [fraction, Option.getD_some] at digits
      have continues : dotContinues (ds ++ (t.exponent ++ suffix.toList)) = true := by
        cases ds with
        | nil => exact dotContinues_tail t.isExponent floating
        | cons d ds => exact dotContinues_digit (digits d List.mem_cons_self)
      rw [Option.elim_some, List.cons_append, splitDigits_dot continues,
        splitDigits_digits digits, stop, List.append_nil]

lemma splitExponent_tail (exponent : IsExponent cs e)
    (floating : ∀ c ∈ suffix, isFloatSuffix c = true) :
    splitExponent (cs ++ suffix.toList) = (cs, suffix.toList) := by
  cases exponent with
  | nothing => exact splitExponent_suffix (by cases suffix <;> simp)
  | @power letter sign ds marked signed nonempty digits =>
      have stop : ∀ c ∈ suffix.toList.head?, c.isDigit = false := by
        cases suffix with
        | none => rintro c ⟨⟩
        | some d =>
            rintro c ⟨⟩
            rcases isFloatSuffix_iff.1 (floating d rfl) with rfl | rfl | rfl | rfl <;> decide
      have letters : (letter == 'e' || letter == 'E') = true := by
        rwa [Bool.or_eq_true, beq_iff_eq, beq_iff_eq]
      have split : ∀ s more, sign ++ ds = s :: more → (s.isDigit || s == '+' || s == '-') = true →
          (∀ d ∈ more, d.isDigit = true) →
          splitExponent (letter :: (sign ++ ds) ++ suffix.toList)
            = (letter :: (sign ++ ds), suffix.toList) := by
        intro s more front follows digits
        obtain ⟨taken, left⟩ := takeWhile_isDigit digits stop
        rw [front, List.cons_append, List.cons_append, splitExponent, letters, follows, taken, left]
        rfl
      rcases signed with rfl | rfl | rfl
      · obtain ⟨d, ds, rfl⟩ := List.exists_cons_of_ne_nil nonempty
        obtain ⟨digit, others⟩ := List.forall_mem_cons.1 digits
        exact split d ds rfl (by rw [digit]; rfl) others
      · exact split '+' ds rfl (by decide) digits
      · exact split '-' ds rfl (by decide) digits

/-- A number is split into its sign, its digits, its exponent and its suffix. -/
lemma split_floating (negative : Bool) (floating : ∀ c ∈ suffix, isFloatSuffix c = true) :
    split ((if negative then ['-'] else []) ++ (t.chars ++ suffix.toList))
      = ⟨if negative then ['-'] else [], [], t.mantissa, t.exponent, suffix.toList, []⟩ := by
  have unsigned : ∀ c ∈ (t.chars ++ suffix.toList).head?, c ≠ '-' := by
    obtain ⟨c, cs, front, first⟩ := t.exists_chars
    rw [front]
    rintro c ⟨⟩ rfl
    rcases first with digit | point
    · cases digit
    · cases point
  have unmarked : ∀ c ∈ t.chars ++ suffix.toList, c ≠ 'x' ∧ c ≠ 'X' := by
    intro c mem
    rcases List.mem_append.1 mem with mem | mem
    · rcases t.mem_chars mem with digit | rfl | rfl | rfl | rfl | rfl
      · exact ⟨(by rintro rfl; cases digit), (by rintro rfl; cases digit)⟩
      all_goals decide
    · rcases isFloatSuffix_iff.1 (floating c (Option.mem_toList.1 mem)) with rfl | rfl | rfl | rfl
        <;> decide
  have suffixed : ∀ whole, splitOne (fun c => isFloatSuffix c || (whole && isLongSuffix c))
      suffix.toList = (suffix.toList, []) := by
    intro whole
    cases suffix with
    | none => rfl
    | some c => simp [splitOne, floating c rfl]
  rw [split, splitSign_signed negative unsigned]
  simp only [splitMark_eq unmarked, List.isEmpty_nil, if_true, splitDigits_chars floating,
    splitExponent_tail t.isExponent floating, suffixed, List.takeWhile_nil]

end NumberText

/-! ## Floating literals -/

/-- A floating literal as it is written. -/
structure FloatingText where
  negative : Bool
  decimal : UnsignedText
  suffix : Option Char
  isFloatSuffix : ∀ c ∈ suffix, NumberText.isFloatSuffix c = true
  /-- Digits alone are a whole number. -/
  marked : decimal.fraction.isSome ∨ decimal.exponent ≠ [] ∨ suffix.isSome

namespace FloatingText

variable (t : FloatingText)

/-- The text of the literal. -/
def chars : List Char :=
  (if t.negative then ['-'] else []) ++ (t.decimal.chars ++ t.suffix.toList)

/-- The text starts as numbers do. -/
lemma exists_chars : ∃ c w, t.chars = c :: w ∧ beginsNumber c w = true ∧ isNameChar c = true := by
  rw [chars, UnsignedText.chars, UnsignedText.mantissa]
  cases whole : t.decimal.whole with
  | cons d ds =>
      exact exists_cons_of_digit t.negative _
        (t.decimal.isDigit_whole d (whole ▸ List.mem_cons_self))
  | nil =>
      have nonempty := t.decimal.digits_ne_nil
      have digits := t.decimal.isDigit_fraction
      cases fraction : t.decimal.fraction with
      | none =>
          rw [whole, fraction] at nonempty
          exact absurd rfl nonempty
      | some ds =>
          rw [whole, fraction, List.nil_append, Option.getD_some] at nonempty
          rw [fraction, Option.getD_some] at digits
          obtain ⟨d, ds, rfl⟩ := List.exists_cons_of_ne_nil nonempty
          have digit := digits d List.mem_cons_self
          cases t.negative with
          | true => exact ⟨'-', _, rfl, by simp [beginsNumber, startsNumber], by decide⟩
          | false => exact ⟨'.', _, rfl, by simp [beginsNumber, startsNumber, digit], by decide⟩

/-- **Each floating literal is one token of the floating kind.** -/
theorem isLexeme : IsLexeme .float t.chars := by
  have split := NumberText.split_floating (t := t.decimal) t.negative t.isFloatSuffix
  obtain ⟨c, w, text, begins, name⟩ := t.exists_chars
  rw [← chars] at split
  have floating : (t.decimal.mantissa.contains '.' || !t.decimal.exponent.isEmpty ||
      t.suffix.toList.any NumberText.isFloatSuffix) = true := by
    rw [UnsignedText.mantissa]
    rcases t.marked with fraction | exponent | suffix
    · obtain ⟨ds, fraction⟩ := Option.isSome_iff_exists.1 fraction
      simp [fraction]
    · simp [exponent]
    · obtain ⟨c, suffix⟩ := Option.isSome_iff_exists.1 suffix
      simp [suffix, t.isFloatSuffix c suffix]
  rw [text] at split ⊢
  refine isLexeme_number split ?_ ?_ begins name
  · rw [NumberText.kind?]
    simp only [List.isEmpty_nil, Bool.not_true, Bool.false_eq_true, if_false, floating, if_true]
  · rw [← text, NumberText.chars, chars, UnsignedText.chars]
    simp

end FloatingText

/-- **Tokens of the floating kind that are decimals without their suffix are floating literals.** -/
theorem exists_floatingText {sign : List Char} {t : UnsignedText} {suffix : Option Char}
    (lexeme : IsLexeme .float (sign ++ (t.chars ++ suffix.toList))) (signed : IsSign sign)
    (floating : ∀ c ∈ suffix, NumberText.isFloatSuffix c = true) :
    ∃ u : FloatingText, u.chars = sign ++ (t.chars ++ suffix.toList) ∧
      u.negative = (sign == ['-']) ∧ u.decimal = t ∧ u.suffix = suffix := by
  have minus : sign = if sign == ['-'] then ['-'] else [] := by
    rcases signed with rfl | rfl | rfl
    · rfl
    · -- a plus sign starts a name
      obtain ⟨c, w, same, -, -, scan⟩ := lexeme
      cases same
      have name : (scanName '+' (t.chars ++ suffix.toList)).1 = .float :=
        congrArg Prod.fst (Except.ok.inj scan)
      unfold scanName at name
      dsimp only at name
      split_ifs at name
    · rfl
  have marked : t.fraction.isSome ∨ t.exponent ≠ [] ∨ suffix.isSome := by
    by_contra plain
    simp only [not_or, not_not, Bool.not_eq_true, Option.isSome_eq_false_iff,
      Option.isNone_iff_eq_none] at plain
    obtain ⟨fraction, exponent, rfl⟩ := plain
    have nonempty := t.digits_ne_nil
    rw [fraction, Option.getD_none, List.append_nil] at nonempty
    have bare : IsLongSuffix [] := .inl rfl
    have whole := isLexeme_whole (sign == ['-']) nonempty t.isDigit_whole bare
    rw [← minus] at whole
    rw [UnsignedText.chars, UnsignedText.mantissa, fraction, exponent] at lexeme
    simp only [Option.elim_none, Option.toList_none, List.append_nil] at lexeme whole
    have same := lexeme.kind_eq whole
    rcases NumberText.wholeKind_eq t.whole with kind | kind <;>
    · rw [kind] at same
      cases same
  exact ⟨⟨sign == ['-'], t, suffix, floating, marked⟩, by rw [FloatingText.chars, ← minus], rfl,
    rfl, rfl⟩

/-! ## Written decimals -/

namespace Decimal.DecimalText

variable {t : DecimalText}

/-- A written decimal with a suffix or without one. -/
def floatingText (t : DecimalText) (suffix : Option Char)
    (floating : ∀ c ∈ suffix, NumberText.isFloatSuffix c = true) : FloatingText where
  negative := t.negative
  decimal := t.unsignedText
  suffix := suffix
  isFloatSuffix := floating
  marked := by
    rcases t.marked with fraction | exponent
    · exact .inl (by simp [unsignedText, fraction])
    · obtain ⟨e, exponent⟩ := Option.isSome_iff_exists.1 exponent
      exact .inr (.inl (by simp [unsignedText, tail, exponent]))

lemma chars_append {suffix : Option Char}
    (floating : ∀ c ∈ suffix, NumberText.isFloatSuffix c = true) :
    t.chars ++ suffix.toList = (t.floatingText suffix floating).chars := by
  rw [chars_eq, List.append_assoc]
  rfl

end Decimal.DecimalText

end DocAnnotations
