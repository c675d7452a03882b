import DocAnnotations.Proofs.Text.Digit
import DocAnnotations.Proofs.Token.Lexeme
import DocAnnotations.Value.Printer
import Mathlib.Data.List.TakeWhile

/-!
# Written numbers as tokens

The lexer cuts a number into sign, mark, digits, exponent and suffix before it decides on the kind.

**Cutting numbers.**  Each part has a lemma that says what is cut off where it is written, and one
where it is not.

**Whole numbers.**  **`isLexeme_whole`** and **`isLexeme_hex`** say that the lexer gets the parts of
a whole number that were written, and nothing is left of the text, so that it is one token of the
kind that its digits give it.

**Integers.**  The printer writes integers in decimal, longs with a suffix (**`isLexeme_integer`**).
-/

namespace DocAnnotations

open Text

variable {c : Char} {cs ds rest suffix : List Char} {kind : TokenKind}

/-! ## Digits -/

lemma isNameChar_of_isDigit (digit : c.isDigit = true) : isNameChar c = true :=
  isNameChar_of_class isDigit_of_stop digit

lemma isBlank_of_isNameChar (h : isNameChar c = true) : isBlank c = false := by
  rw [isNameChar, Bool.and_eq_true, Bool.not_eq_true'] at h
  exact h.1

/-- What is true of the ten digits. -/
lemma of_isDigit {P : Char → Prop} (all : ∀ n ∈ List.range' 48 10, P (Char.ofNat n))
    (digit : c.isDigit = true) : P c := by
  rw [← c.ofNat_toNat]
  refine all _ (List.mem_range'_1.2 ?_)
  simp only [Char.isDigit, ge_iff_le, Bool.and_eq_true, decide_eq_true_eq, UInt32.le_iff_toNat_le]
    at digit
  exact ⟨digit.1, Nat.lt_succ_of_le digit.2⟩

/-! ## Cutting numbers -/

namespace NumberText

/-- A minus sign is split off in front of what has no minus sign itself. -/
lemma splitSign_signed (negative : Bool) (unsigned : ∀ c ∈ cs.head?, c ≠ '-') :
    splitSign ((if negative then ['-'] else []) ++ cs)
      = (if negative then ['-'] else [], cs) := by
  cases negative with
  | true => rfl
  | false =>
      cases cs with
      | nil => rfl
      | cons c cs =>
          have minus := unsigned c rfl
          simp [splitSign, minus]

lemma splitSign_eq (negative : Bool) (digit : ∀ c ∈ cs.head?, c.isDigit = true) :
    splitSign ((if negative then ['-'] else []) ++ cs)
      = (if negative then ['-'] else [], cs) := by
  refine splitSign_signed negative fun c front => ?_
  rintro rfl
  exact absurd (digit '-' front) (by decide)

lemma splitSign_fst (cs : List Char) : (splitSign cs).1 = [] ∨ (splitSign cs).1 = ['-'] := by
  unfold splitSign
  split
  · exact .inr rfl
  · exact .inl rfl

lemma splitMark_cons (second : ∀ x ∈ cs.head?, x ≠ 'x' ∧ x ≠ 'X') :
    splitMark (c :: cs) = ([], c :: cs) := by
  rw [splitMark.eq_def]
  split
  · next x rest same =>
    cases same
    obtain ⟨small, large⟩ := second x rfl
    simp [small, large]
  · rfl

lemma splitMark_eq (unmarked : ∀ c ∈ cs, c ≠ 'x' ∧ c ≠ 'X') : splitMark cs = ([], cs) := by
  cases cs with
  | nil => rfl
  | cons c cs =>
      exact splitMark_cons fun x second =>
        unmarked x (List.mem_cons_of_mem c (List.mem_of_head? second))

/-- Digits are split off as a whole, and what follows is split as it is without them. -/
lemma splitDigits_digits (digits : ∀ c ∈ ds, c.isDigit = true) :
    splitDigits (ds ++ rest) = (ds ++ (splitDigits rest).1, (splitDigits rest).2) := by
  induction ds with
  | nil => rfl
  | cons d ds ih =>
      obtain ⟨digit, digits⟩ := List.forall_mem_cons.1 digits
      rw [List.cons_append, splitDigits, digit, Bool.true_or, if_pos rfl, ih digits]
      rfl

/-- No digits are split off where neither a digit nor a point stands. -/
lemma splitDigits_stop (stop : ∀ c ∈ rest.head?, c.isDigit = false ∧ c ≠ '.') :
    splitDigits rest = ([], rest) := by
  cases rest with
  | nil => rfl
  | cons c cs =>
      obtain ⟨digit, dot⟩ := stop c rfl
      simp [splitDigits, digit, dot]

/-- A dot with a digit behind it belongs to the number. -/
lemma dotContinues_digit {d : Char} (digit : d.isDigit = true) :
    dotContinues (d :: cs) = true := by
  refine of_isDigit (P := fun d => dotContinues (d :: cs) = true) ?_ digit
  have start : ∀ n ∈ List.range' 48 10, isNameStart (Char.ofNat n) = false := by decide +kernel
  have letter : ∀ n ∈ List.range' 48 10,
      ['f', 'F', 'd', 'D', 'e', 'E'].all (Char.ofNat n != ·) = true := by decide
  intro n hn
  have apart := letter n hn
  simp only [List.all_cons, List.all_nil, Bool.and_true, Bool.and_eq_true, bne_iff_ne] at apart
  simp [dotContinues, start n hn, apart]

/-- A point is split off with the digits if digits go on behind it. -/
lemma splitDigits_dot (continues : dotContinues cs = true) :
    splitDigits ('.' :: cs) = ('.' :: (splitDigits cs).1, (splitDigits cs).2) := by
  rw [splitDigits, continues]
  rfl

/-- What may stand behind the digits of a number: nothing, or one letter that is a suffix. -/
lemma splitExponent_suffix (few : suffix.length ≤ 1) : splitExponent suffix = ([], suffix) := by
  match suffix, few with
  | [], _ => rfl
  | [c], _ => rfl

end NumberText

/-- Where the parts of a number are all of the text, the text is one number. -/
lemma isLexeme_number {n : NumberText} (split : NumberText.split (c :: cs) = n)
    (kinded : n.kind? = some kind) (all : n.chars = c :: cs)
    (begins : beginsNumber c cs = true) (name : isNameChar c = true) :
    IsLexeme kind (c :: cs) := by
  have word := isWord_kind? kinded
  refine ⟨c, cs, rfl, isBlank_of_isNameChar name, (by rintro rfl; cases word), ?_⟩
  rcases scanToken_shape c with ⟨_, -, -, stop, -⟩ | ⟨_, -, stop, -⟩ | scan
  · rw [name] at stop
    cases stop
  · rw [name] at stop
    cases stop
  · rw [scan, begins, if_pos rfl, scanNumber, split]
    simp only [kinded, all, List.length_cons, Nat.add_sub_cancel]

/-- A number starts with a digit, or with a minus sign and a digit. -/
lemma exists_cons_of_digit (negative : Bool) {first : Char} (more : List Char)
    (digit : first.isDigit = true) : ∃ c w,
      (if negative then ['-'] else []) ++ first :: more = c :: w ∧ beginsNumber c w = true ∧
        isNameChar c = true := by
  cases negative with
  | true => exact ⟨'-', first :: more, rfl, by simp [beginsNumber, startsNumber, digit], by decide⟩
  | false =>
      have dot : first ≠ '.' := by rintro rfl; cases digit
      have minus : first ≠ '-' := by rintro rfl; cases digit
      exact ⟨first, more, rfl, by simp [beginsNumber, dot, minus, digit],
        isNameChar_of_isDigit digit⟩

/-! ## Whole numbers -/

section

variable (negative : Bool)

/-- Only the suffixes of longs stay with whole numbers. -/
def IsLongSuffix (suffix : List Char) : Prop := suffix = [] ∨ suffix = ['l'] ∨ suffix = ['L']

namespace NumberText

lemma contains_dot_of_digits (digits : ∀ c ∈ cs, c.isDigit = true) : cs.contains '.' = false := by
  cases dotted : cs.contains '.' with
  | false => rfl
  | true => exact absurd (digits '.' (List.contains_iff_mem.1 dotted)) (by decide)

lemma splitOne_long {p : Char → Bool} (small : p 'l' = true) (large : p 'L' = true)
    (long : IsLongSuffix suffix) : splitOne p suffix = (suffix, []) := by
  rcases long with rfl | rfl | rfl
  · rfl
  · simp [splitOne, small]
  · simp [splitOne, large]

/-- A whole number is split into its sign, its digits and its suffix. -/
lemma split_whole (nonempty : ds ≠ []) (digits : ∀ c ∈ ds, c.isDigit = true)
    (long : IsLongSuffix suffix) : split ((if negative then ['-'] else []) ++ (ds ++ suffix))
      = ⟨if negative then ['-'] else [], [], ds, [], suffix, []⟩ := by
  have start : ∀ c ∈ (ds ++ suffix).head?, c.isDigit = true := by
    obtain ⟨d, ds, rfl⟩ := List.exists_cons_of_ne_nil nonempty
    rintro c ⟨⟩
    exact digits d List.mem_cons_self
  have stop : ∀ c ∈ suffix.head?, c.isDigit = false ∧ c ≠ '.' := by
    rcases long with rfl | rfl | rfl <;> simp
  have few : suffix.length ≤ 1 := by
    rcases long with rfl | rfl | rfl <;> decide
  have unmarked : ∀ c ∈ ds ++ suffix, c ≠ 'x' ∧ c ≠ 'X' := by
    intro c mem
    rcases List.mem_append.1 mem with mem | mem
    · have digit := digits c mem
      exact ⟨(by rintro rfl; cases digit), (by rintro rfl; cases digit)⟩
    · rcases long with rfl | rfl | rfl
      · cases mem
      all_goals
        rw [List.mem_singleton.1 mem]
        decide
  have suffixed := splitOne_long (p := fun c => isFloatSuffix c || (true && isLongSuffix c))
    rfl rfl long
  rw [split, splitSign_eq negative start]
  simp only [splitMark_eq unmarked, List.isEmpty_nil, if_true, splitDigits_digits digits,
    splitDigits_stop stop, List.append_nil, splitExponent_suffix few,
    contains_dot_of_digits digits, Bool.not_false, Bool.and_self, suffixed, List.takeWhile_nil]

/-- A hexadecimal number is split into its sign, its mark, its digits and its suffix. -/
lemma split_hex {x : Char} (letter : x = 'x' ∨ x = 'X') (digits : ∀ c ∈ ds, isHexDigit c = true)
    (long : IsLongSuffix suffix) :
    split ((if negative then ['-'] else []) ++ '0' :: x :: (ds ++ suffix))
      = ⟨if negative then ['-'] else [], ['0', x], ds, [], suffix, []⟩ := by
  have start : ∀ c ∈ ('0' :: x :: (ds ++ suffix)).head?, c.isDigit = true := by
    rintro c ⟨⟩
    decide
  have marked : splitMark ('0' :: x :: (ds ++ suffix)) = (['0', x], ds ++ suffix) := by
    rcases letter with rfl | rfl <;> rfl
  have stop : ∀ c ∈ suffix.head?, isHexDigit c = false := by
    rcases long with rfl | rfl | rfl
    · simp
    all_goals
      rintro c ⟨⟩
      decide
  have taken : (ds ++ suffix).takeWhile isHexDigit = ds := by
    rw [takeWhile_append_of_stop stop]
    exact List.takeWhile_eq_self_iff.2 digits
  have left : (ds ++ suffix).dropWhile isHexDigit = suffix := by
    rw [dropWhile_append_of_stop stop, List.dropWhile_eq_nil_iff.2 digits, List.nil_append]
  have suffixed := splitOne_long (p := isLongSuffix) rfl rfl long
  rw [split, splitSign_eq negative start]
  simp only [marked, List.isEmpty_cons, Bool.false_eq_true, if_false, taken, left, suffixed,
    List.takeWhile_nil]

end NumberText

lemma NumberText.wholeKind_eq (ds : List Char) :
    wholeKind ds = .octal ∨ wholeKind ds = .integer := by
  unfold wholeKind
  split_ifs
  · exact .inl rfl
  · exact .inr rfl

/-- **Digits are a number**, with or without the suffix of longs. -/
theorem isLexeme_whole (nonempty : ds ≠ []) (digits : ∀ c ∈ ds, c.isDigit = true)
    (long : IsLongSuffix suffix) :
    IsLexeme (NumberText.wholeKind ds) ((if negative then ['-'] else []) ++ (ds ++ suffix)) := by
  have split := NumberText.split_whole negative nonempty digits long
  obtain ⟨d, ds, rfl⟩ := List.exists_cons_of_ne_nil nonempty
  obtain ⟨c, w, text, begins, name⟩ :=
    exists_cons_of_digit negative (ds ++ suffix) (digits d List.mem_cons_self)
  rw [List.cons_append, text] at split ⊢
  refine isLexeme_number split ?_ ?_ begins name
  · have dot := NumberText.contains_dot_of_digits digits
    rcases long with rfl | rfl | rfl
    · simp only [NumberText.kind?, dot, List.isEmpty_nil, Bool.not_true, Bool.false_eq_true,
        if_false, List.any_nil, Bool.or_self, if_true, List.append_nil]
    all_goals
      simp only [NumberText.kind?, dot, List.isEmpty_nil, Bool.not_true, Bool.false_eq_true,
        if_false, List.isEmpty_cons, List.append_nil, List.getLast?_concat, List.dropLast_concat]
      rfl
  · rw [← text, NumberText.chars]
    simp

/-- So are the digits behind the mark of hexadecimal ones. -/
theorem isLexeme_hex {x : Char} (letter : x = 'x' ∨ x = 'X')
    (digits : ∀ c ∈ ds, isHexDigit c = true) (long : IsLongSuffix suffix) :
    IsLexeme .hex ((if negative then ['-'] else []) ++ '0' :: x :: (ds ++ suffix)) := by
  have split := NumberText.split_hex negative letter digits long
  obtain ⟨c, w, text, begins, name⟩ :=
    exists_cons_of_digit negative (x :: (ds ++ suffix)) (show '0'.isDigit = true by decide)
  rw [text] at split ⊢
  refine isLexeme_number split rfl ?_ begins name
  rw [← text, NumberText.chars]
  simp

end

/-! ## Integers -/

/-- An integer is written as its sign and the decimal digits of its absolute value. -/
lemma integerChars_eq (n : Int) :
    integerChars n = (if decide (n < 0) then ['-'] else []) ++ Nat.toDigits 10 n.natAbs := by
  rw [integerChars]
  by_cases negative : n < 0 <;> simp [negative]

/-- The digits of a number are not those of an octal one. -/
lemma wholeKind_toDigits (n : Nat) : NumberText.wholeKind (Nat.toDigits 10 n) = .integer := by
  rw [NumberText.wholeKind]
  refine if_neg ?_
  rw [Bool.and_eq_true, beq_iff_eq, decide_eq_true_eq]
  rintro ⟨zero, long⟩
  rcases Nat.eq_zero_or_pos n with rfl | positive
  · exact absurd long (by decide)
  · exact head?_toDigits_ne_zero n positive zero

/-- **A written integer is a number of the integer kind**, with or without the suffix of longs. -/
theorem isLexeme_integer (n : Int) (long : suffix = [] ∨ suffix = ['L']) :
    IsLexeme .integer (integerChars n ++ suffix) := by
  have whole := isLexeme_whole (decide (n < 0)) Nat.toDigits_ne_nil
    (isDigit_toDigits n.natAbs) (long.imp_right .inr)
  rwa [wholeKind_toDigits, ← List.append_assoc, ← integerChars_eq] at whole

end DocAnnotations
