import DocAnnotations.Token.Lexer
import Mathlib.Tactic.Common

/-!
# Where words stop

A name or number goes on until a blank or a punctuation mark.  `Stops rest` says that nothing or
such a character follows.

**The characters that stop a word.**  There are few of them (`mem_stopScalars`), so what they are
not is decided one by one: no letters, no digits, no suffixes.

**Numbers.**  The lexer looks up to two characters past a dot and one past an exponent letter, and
what stops a word looks to it like the end of the text.  **`split_append`**: a number is cut into
the same parts whatever stops behind it.

**The parts are a front of the text.**  Cutting off a part loses nothing, so the parts together are
no longer than the text.
-/

namespace DocAnnotations

open Text

/-- Nothing follows, or a character that no name goes on with. -/
def Stops (rest : List Char) : Prop := ∀ c ∈ rest.head?, isNameChar c = false

lemma stops_nil : Stops [] := by simp [Stops]

lemma stops_cons {c : Char} {cs : List Char} : Stops (c :: cs) ↔ isNameChar c = false := by
  simp [Stops]

/-! ## The characters that stop a word -/

/-- What a set of characters has lies in one of its ranges. -/
lemma exists_range_of_hasScalar {n : Nat} :
    ∀ {set : CharSet}, set.hasScalar n = true → ∃ range ∈ set, range.1 ≤ n ∧ n ≤ range.2
  | [], h => by cases h
  | (first, last) :: ranges, h => by
      rw [CharSet.hasScalar] at h
      split_ifs at h with before
      · exact ⟨_, List.mem_cons_self, by simpa using h, before⟩
      · obtain ⟨range, mem, inside⟩ := exists_range_of_hasScalar h
        exact ⟨range, List.mem_cons_of_mem _ mem, inside⟩

/-- The scalar values of the characters that are no part of a name. -/
def stopScalars : List Nat :=
  (blanks.flatMap fun range => List.range' range.1 (range.2 + 1 - range.1))
    ++ punctuation.map Char.toNat

/-- A character that cannot stand in a name is one of those that are listed. -/
lemma mem_stopScalars {c : Char} (h : isNameChar c = false) : c.toNat ∈ stopScalars := by
  rw [isNameChar, Bool.and_eq_false_iff, Bool.not_eq_false', Bool.not_eq_false'] at h
  rw [stopScalars, List.mem_append, List.mem_flatMap]
  rcases h with blank | mark
  · obtain ⟨range, mem, low, high⟩ := exists_range_of_hasScalar blank
    exact .inl ⟨range, mem, List.mem_range'_1.2 ⟨low, by omega⟩⟩
  · exact .inr (List.mem_map.2 ⟨c, by simpa using mark, rfl⟩)

/-- What the characters that stop a word have in common. -/
lemma of_stop {P : Char → Prop} (all : ∀ n ∈ stopScalars, P (Char.ofNat n)) {c : Char}
    (h : isNameChar c = false) : P c := by
  have := all _ (mem_stopScalars h)
  rwa [Char.ofNat_toNat] at this

section

variable {c : Char} (h : isNameChar c = false)

include h

lemma isLetterOrNumeral_of_stop : isLetterOrNumeral c = false :=
  of_stop (P := fun c => isLetterOrNumeral c = false) (by decide +kernel) h

lemma isDigit_of_stop : c.isDigit = false :=
  of_stop (P := fun c => c.isDigit = false) (by decide) h

lemma isHexDigit_of_stop : isHexDigit c = false :=
  of_stop (P := fun c => isHexDigit c = false) (by decide) h

lemma suffixes_of_stop :
    NumberText.isFloatSuffix c = false ∧ NumberText.isLongSuffix c = false :=
  of_stop (P := fun c => NumberText.isFloatSuffix c = false ∧ NumberText.isLongSuffix c = false)
    (by decide) h

lemma ne_of_stop {d : Char} (name : isNameChar d = true) : c ≠ d := by
  rintro rfl
  rw [h] at name
  cases name

lemma isNameStart_of_stop : isNameStart c = false := by
  have letter := (Bool.or_eq_false_iff.1 (isLetterOrNumeral_of_stop h)).1
  have underscore : c ≠ '_' := ne_of_stop h (by decide)
  have dollar : c ≠ '$' := ne_of_stop h (by decide)
  simp [isNameStart, letter, underscore, dollar]

end

/-- A class of characters that nothing that stops a word is in is one of name characters. -/
lemma isNameChar_of_class {p : Char → Bool} {c : Char}
    (apart : isNameChar c = false → p c = false) (h : p c = true) : isNameChar c = true := by
  by_contra stop
  rw [apart (Bool.not_eq_true _ ▸ stop)] at h
  cases h

/-! ## Numbers -/

namespace NumberText

variable {rest : List Char}

/-- The sign of a number does not depend on what follows the number. -/
lemma splitSign_append (stops : Stops rest) (w : List Char) :
    splitSign (w ++ rest) = ((splitSign w).1, (splitSign w).2 ++ rest) := by
  cases w with
  | nil =>
      cases rest with
      | nil => rfl
      | cons c cs =>
          have sign : c ≠ '-' := ne_of_stop (stops_cons.1 stops) (by decide)
          simp [splitSign, sign]
  | cons a w =>
      by_cases sign : a = '-'
      · subst sign
        rfl
      · simp [splitSign, sign]

lemma splitMark_append (stops : Stops rest) (w : List Char) :
    splitMark (w ++ rest) = ((splitMark w).1, (splitMark w).2 ++ rest) := by
  cases w with
  | nil =>
      cases rest with
      | nil => rfl
      | cons c cs =>
          have zero : c ≠ '0' := ne_of_stop (stops_cons.1 stops) (by decide)
          simp [splitMark, zero]
  | cons a w =>
      by_cases zero : a = '0'
      · subst zero
        cases w with
        | nil =>
            cases rest with
            | nil => rfl
            | cons c cs =>
                have small : c ≠ 'x' := ne_of_stop (stops_cons.1 stops) (by decide)
                have large : c ≠ 'X' := ne_of_stop (stops_cons.1 stops) (by decide)
                simp [splitMark, small, large]
        | cons b w =>
            simp only [splitMark, List.cons_append]
            split <;> rfl
      · simp [splitMark, zero]

/-- What stops behind a dot counts as the end of the text. -/
lemma dotContinues_append (stops : Stops rest) (w : List Char) :
    dotContinues (w ++ rest) = dotContinues w := by
  rcases w with - | ⟨a, - | ⟨b, w⟩⟩
  · cases rest with
    | nil => rfl
    | cons c cs =>
        have stop := stops_cons.1 stops
        obtain ⟨suffix, -⟩ := suffixes_of_stop stop
        have small : c ≠ 'e' := ne_of_stop stop (by decide)
        have large : c ≠ 'E' := ne_of_stop stop (by decide)
        rw [isFloatSuffix] at suffix
        simp [dotContinues, suffix, small, large, isNameStart_of_stop stop]
  · cases rest with
    | nil => rfl
    | cons c cs =>
        have stop := stops_cons.1 stops
        have plus := beq_false_of_ne (ne_of_stop (d := '+') stop (by decide))
        have minus := beq_false_of_ne (ne_of_stop (d := '-') stop (by decide))
        simp only [dotContinues, List.cons_append, List.nil_append, isNameStart_of_stop stop,
          isDigit_of_stop stop, plus, minus, Bool.or_self, Bool.not_false, Bool.and_self]
  · rfl

/-- The digits of a number do not depend on what follows the number. -/
lemma splitDigits_append (stops : Stops rest) : ∀ w : List Char,
    splitDigits (w ++ rest) = ((splitDigits w).1, (splitDigits w).2 ++ rest)
  | [] => by
      cases rest with
      | nil => rfl
      | cons c cs =>
          have digit := isDigit_of_stop (stops_cons.1 stops)
          have dot : c ≠ '.' := ne_of_stop (stops_cons.1 stops) (by decide)
          simp [splitDigits, digit, dot]
  | a :: w => by
      rw [List.cons_append, splitDigits, splitDigits, dotContinues_append stops,
        splitDigits_append stops w]
      split <;> rfl

lemma splitOne_append {p : Char → Bool} (stops : ∀ c ∈ rest.head?, p c = false) (w : List Char) :
    splitOne p (w ++ rest) = ((splitOne p w).1, (splitOne p w).2 ++ rest) := by
  cases w with
  | nil =>
      cases rest with
      | nil => rfl
      | cons c cs => simp [splitOne, stops c rfl]
  | cons a w =>
      simp only [splitOne, List.cons_append]
      split <;> rfl

lemma takeWhile_append_of_stop {p : Char → Bool} (stops : ∀ c ∈ rest.head?, p c = false)
    (w : List Char) : (w ++ rest).takeWhile p = w.takeWhile p := by
  induction w with
  | nil =>
      cases rest with
      | nil => rfl
      | cons c cs => simp [stops c rfl]
  | cons a w ih => simp only [List.cons_append, List.takeWhile_cons, ih]

lemma dropWhile_append_of_stop {p : Char → Bool} (stops : ∀ c ∈ rest.head?, p c = false)
    (w : List Char) : (w ++ rest).dropWhile p = w.dropWhile p ++ rest := by
  induction w with
  | nil =>
      cases rest with
      | nil => rfl
      | cons c cs => simp [stops c rfl]
  | cons a w ih =>
      simp only [List.cons_append, List.dropWhile_cons, ih]
      split <;> rfl

/-- The exponent of a number does not depend on what follows the number. -/
lemma splitExponent_append (stops : Stops rest) (w : List Char) :
    splitExponent (w ++ rest) = ((splitExponent w).1, (splitExponent w).2 ++ rest) := by
  have noDigit : ∀ c ∈ rest.head?, c.isDigit = false := fun c first =>
    isDigit_of_stop (stops c first)
  rcases w with - | ⟨a, - | ⟨b, w⟩⟩
  · rcases rest with - | ⟨c, - | ⟨d, cs⟩⟩
    · rfl
    · rfl
    · have small : c ≠ 'e' := ne_of_stop (stops_cons.1 stops) (by decide)
      have large : c ≠ 'E' := ne_of_stop (stops_cons.1 stops) (by decide)
      simp [splitExponent, small, large]
  · cases rest with
    | nil => rfl
    | cons c cs =>
        have stop := stops_cons.1 stops
        have plus : c ≠ '+' := ne_of_stop stop (by decide)
        have minus : c ≠ '-' := ne_of_stop stop (by decide)
        simp [splitExponent, isDigit_of_stop stop, plus, minus]
  · simp only [splitExponent, List.cons_append, takeWhile_append_of_stop noDigit,
      dropWhile_append_of_stop noDigit]
    split <;> rfl

/-- A number has the same parts whatever stops behind it. -/
theorem split_append (stops : Stops rest) (w : List Char) : split (w ++ rest) = split w := by
  have noHexDigit : ∀ c ∈ rest.head?, isHexDigit c = false := fun c first =>
    isHexDigit_of_stop (stops c first)
  have noLong : ∀ c ∈ rest.head?, isLongSuffix c = false := fun c first =>
    (suffixes_of_stop (stops c first)).2
  have noSuffix : ∀ whole : Bool, ∀ c ∈ rest.head?,
      (isFloatSuffix c || (whole && isLongSuffix c)) = false := fun whole c first => by
    rw [(suffixes_of_stop (stops c first)).1, noLong c first, Bool.and_false, Bool.or_self]
  have noName : ∀ c ∈ rest.head?, (isNameChar c && c != '.') = false := fun c first => by
    rw [stops c first, Bool.false_and]
  simp only [split, splitSign_append stops, splitMark_append stops, splitDigits_append stops,
    splitExponent_append stops, splitOne_append (noSuffix _), splitOne_append noLong,
    dropWhile_append_of_stop noHexDigit, takeWhile_append_of_stop noHexDigit,
    takeWhile_append_of_stop noName]

/-! ### The parts are a front of the text -/

lemma splitSign_join (cs : List Char) : (splitSign cs).1 ++ (splitSign cs).2 = cs := by
  unfold splitSign
  split <;> rfl

lemma splitMark_join (cs : List Char) : (splitMark cs).1 ++ (splitMark cs).2 = cs := by
  unfold splitMark
  split
  · split <;> rfl
  · rfl

/-- Splitting off digits loses nothing of the text. -/
lemma splitDigits_join : ∀ cs : List Char, (splitDigits cs).1 ++ (splitDigits cs).2 = cs
  | [] => rfl
  | c :: cs => by
      rw [splitDigits]
      split
      · rw [List.cons_append, splitDigits_join cs]
      · rfl

/-- Splitting off an exponent loses nothing of the text. -/
lemma splitExponent_join (cs : List Char) : (splitExponent cs).1 ++ (splitExponent cs).2 = cs := by
  unfold splitExponent
  split
  · split
    · simp [List.takeWhile_append_dropWhile]
    · rfl
  · rfl

lemma splitOne_join (p : Char → Bool) (cs : List Char) :
    (splitOne p cs).1 ++ (splitOne p cs).2 = cs := by
  unfold splitOne
  split
  · split <;> rfl
  · rfl

/-- The parts of a number in order are a front of the text. -/
lemma length_chars_split_le (cs : List Char) : (split cs).chars.length ≤ cs.length := by
  have takeWhile_le : ∀ (p : Char → Bool) (cs : List Char), (cs.takeWhile p).length ≤ cs.length :=
    fun p cs => (List.takeWhile_prefix p).length_le
  have sign := congrArg List.length (splitSign_join cs)
  have mark := congrArg List.length (splitMark_join (splitSign cs).2)
  simp only [List.length_append] at sign mark
  unfold split
  dsimp only
  split
  · have digits := congrArg List.length (splitDigits_join (splitMark (splitSign cs).2).2)
    have exponent := congrArg List.length
      (splitExponent_join (splitDigits (splitMark (splitSign cs).2).2).2)
    have suffix := fun p => congrArg List.length
      (splitOne_join p (splitExponent (splitDigits (splitMark (splitSign cs).2).2).2).2)
    simp only [List.length_append] at digits exponent suffix
    simp only [chars, List.length_append]
    grind
  · have digits := congrArg List.length
      (List.takeWhile_append_dropWhile (p := isHexDigit) (l := (splitMark (splitSign cs).2).2))
    have suffix := congrArg List.length
      (splitOne_join isLongSuffix ((splitMark (splitSign cs).2).2.dropWhile isHexDigit))
    simp only [List.length_append] at digits suffix
    simp only [chars, List.length_append, List.length_nil]
    grind

end NumberText

end DocAnnotations
