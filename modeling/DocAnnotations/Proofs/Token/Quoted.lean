import DocAnnotations.Proofs.Token.Escape
import DocAnnotations.Value.Printer

/-!
# Written texts and characters

A text is written between quotes, with escapes for what would end it or not be seen.

**Units.**  A character of the basic plane is one unit of sixteen bits and any other is a pair of
surrogates; reading units back as characters undoes this (`charsOfUnits_iff`).

**Escaped characters.**  What is written spells the units of the text (**`spellsUnits_flatMap`**).

**Tokens.**  With that every text is a single literal (**`isLexeme_quoted`**), and stands for itself
again (**`stringLiteral?_quotedChars`**, **`charLiteral?_quotedChars`**).
-/

namespace DocAnnotations

open Text

variable {quote c : Char} {cs : List Char}

/-! ## Units -/

lemma unitsOfChar_of_lt (small : c.toNat < 0x10000) : unitsOfChar c = [UInt16.ofNat c.toNat] :=
  if_pos small

/-- The units of a character are read as the character. -/
lemma charsOfUnits_unitsOfChar (us : List UInt16) :
    charsOfUnits (unitsOfChar c ++ us) = (charsOfUnits us).map (c :: ·) := by
  have valid : c.toNat < 0xd800 ∨ 0xdfff < c.toNat ∧ c.toNat < 0x110000 := c.valid
  rw [unitsOfChar]
  split_ifs with small
  · have unit : (UInt16.ofNat c.toNat).toNat = c.toNat := UInt16.toNat_ofNat_of_lt small
    have single : UInt16.ofNat c.toNat < 0xd800 ∨ 0xdfff < UInt16.ofNat c.toNat := by
      rw [UInt16.lt_iff_toNat_lt, UInt16.lt_iff_toNat_lt, unit]
      change c.toNat < 0xd800 ∨ 0xdfff < c.toNat
      omega
    rw [List.singleton_append, charsOfUnits.eq_def]
    dsimp only
    rw [if_pos (by simpa using single), unit, c.ofNat_toNat]
  · -- the upper ten bits of what is above the basic plane are in the first unit
    obtain ⟨n, above, bound⟩ : ∃ n, c.toNat = 0x10000 + n ∧ n < 0x100000 :=
      ⟨c.toNat - 0x10000, by omega, by omega⟩
    simp only [above, Nat.add_sub_cancel_left]
    have size : UInt16.size = 65536 := rfl
    have high : (UInt16.ofNat (0xd800 + n / 0x400)).toNat = 0xd800 + n / 0x400 :=
      UInt16.toNat_ofNat_of_lt (by rw [size]; omega)
    have low : (UInt16.ofNat (0xdc00 + n % 0x400)).toNat = 0xdc00 + n % 0x400 :=
      UInt16.toNat_ofNat_of_lt (by rw [size]; omega)
    have value : 0x10000 + (0xd800 + n / 0x400 - 0xd800) * 0x400
        + (0xdc00 + n % 0x400 - 0xdc00) = c.toNat := by omega
    generalize UInt16.ofNat (0xd800 + n / 0x400) = first at high
    generalize UInt16.ofNat (0xdc00 + n % 0x400) = second at low
    have paired : ¬ (first < 0xd800 ∨ 0xdfff < first) ∧ ¬ 0xdbff < first ∧
        ¬ (second < 0xdc00 ∨ 0xdfff < second) := by
      simp only [UInt16.lt_iff_toNat_lt, high, low, UInt16.reduceToNat]
      omega
    rw [List.cons_append, List.singleton_append, charsOfUnits.eq_def]
    dsimp only
    rw [if_neg (by simpa using paired.1), if_neg paired.2.1]
    rw [if_neg (by simpa using paired.2.2), high, low, value, c.ofNat_toNat]

/-- The units of several characters are read back as these characters. -/
lemma charsOfUnits_flatMap (cs : List Char) :
    charsOfUnits (cs.flatMap unitsOfChar) = some cs := by
  induction cs with
  | nil => rfl
  | cons c cs ih => rw [List.flatMap_cons, charsOfUnits_unitsOfChar, ih, Option.map_some]

lemma toNat_ofNat_of_valid {n : Nat} (valid : n.isValidChar) : (Char.ofNat n).toNat = n := by
  rw [Char.ofNat, dif_pos valid]
  rfl

/-- A unit is a character by itself if and only if it is no surrogate. -/
lemma isValidChar_iff {unit : UInt16} :
    unit.toNat.isValidChar ↔ unit < 0xd800 ∨ 0xdfff < unit := by
  have small := unit.toNat_lt
  simp only [UInt16.lt_iff_toNat_lt, UInt16.reduceToNat]
  unfold Nat.isValidChar
  omega

/-- A unit that is no surrogate is the unit of a character. -/
lemma unitsOfChar_single {unit : UInt16} (single : unit < 0xd800 ∨ 0xdfff < unit) :
    unitsOfChar (Char.ofNat unit.toNat) = [unit] := by
  rw [unitsOfChar, toNat_ofNat_of_valid (isValidChar_iff.2 single), if_pos unit.toNat_lt,
    UInt16.ofNat_toNat]

/-- Two surrogates in order are the units of a character. -/
lemma unitsOfChar_pair {high low : UInt16} (first : 0xd800 ≤ high ∧ high ≤ 0xdbff)
    (second : 0xdc00 ≤ low ∧ low ≤ 0xdfff) :
    unitsOfChar (Char.ofNat (0x10000 + (high.toNat - 0xd800) * 0x400 + (low.toNat - 0xdc00)))
      = [high, low] := by
  simp only [UInt16.le_iff_toNat_le, UInt16.reduceToNat] at first second
  have valid : (0x10000 + (high.toNat - 0xd800) * 0x400 + (low.toNat - 0xdc00)).isValidChar := by
    unfold Nat.isValidChar
    omega
  rw [unitsOfChar, toNat_ofNat_of_valid valid, if_neg (by omega)]
  have upper : 0xd800 + (0x10000 + (high.toNat - 0xd800) * 0x400 + (low.toNat - 0xdc00) - 0x10000)
      / 0x400 = high.toNat := by omega
  have lower : 0xdc00 + (0x10000 + (high.toNat - 0xd800) * 0x400 + (low.toNat - 0xdc00) - 0x10000)
      % 0x400 = low.toNat := by omega
  dsimp only
  rw [upper, lower, UInt16.ofNat_toNat, UInt16.ofNat_toNat]

/-- Units that are read as characters are the units of these characters. -/
lemma flatMap_of_charsOfUnits : ∀ {us : List UInt16} {cs : List Char},
    charsOfUnits us = some cs → cs.flatMap unitsOfChar = us
  | [], cs, read => by
      cases read
      rfl
  | high :: us, cs, read => by
      rw [charsOfUnits.eq_def] at read
      dsimp only at read
      split_ifs at read with single late
      · obtain ⟨cs, read', rfl⟩ := Option.map_eq_some_iff.1 read
        rw [List.flatMap_cons, flatMap_of_charsOfUnits read',
          unitsOfChar_single (by simpa using single), List.singleton_append]
      · split at read
        · cases read
        · next low us =>
          split_ifs at read with unpaired
          obtain ⟨cs, read', rfl⟩ := Option.map_eq_some_iff.1 read
          simp only [Bool.or_eq_true, decide_eq_true_eq, not_or, UInt16.not_lt]
            at single late unpaired
          rw [List.flatMap_cons, flatMap_of_charsOfUnits read',
            unitsOfChar_pair ⟨single.1, late⟩ unpaired]
          rfl

/-- **Units are read as the text that they encode**, if they encode one. -/
theorem charsOfUnits_iff {us : List UInt16} {cs : List Char} :
    charsOfUnits us = some cs ↔ cs.flatMap unitsOfChar = us :=
  ⟨flatMap_of_charsOfUnits, fun same => same ▸ charsOfUnits_flatMap cs⟩

/-! ## Escaped characters -/

/-- The digits of an escape by number. -/
lemma numberOf?_hexPadded {n : Nat} (small : n < 0x10000) :
    (hexPadded 4 n).toList.length = 4 ∧ numberOf? 16 (hexPadded 4 n).toList = some n := by
  have few : (Nat.toDigits 16 n).length ≤ 4 :=
    (Nat.length_toDigits_le_iff (by decide) (by decide)).2 small
  have value : numberFrom? 16 0 (Nat.toDigits 16 n) = some n := by
    rw [numberFrom?_toDigits (by decide) (by decide), Nat.zero_mul, Nat.zero_add]
  have digits : (hexPadded 4 n).toList
      = List.replicate (4 - (Nat.toDigits 16 n).length) '0' ++ Nat.toDigits 16 n := by
    rw [hexPadded, String.toList_ofList]
  constructor
  · rw [digits, List.length_append, List.length_replicate]
    omega
  · rw [digits, numberOf?, if_neg (by simp [Nat.toDigits_ne_nil]),
      numberFrom?_zeros_append (by decide), value]

/-- An escaped character spells the units of the character. -/
lemma spellsUnits_escapedChar (kind : quote = '"' ∨ quote = '\'') {us : List UInt16}
    (more : SpellsUnits quote cs us) :
    SpellsUnits quote (escapedChar quote c ++ cs) (unitsOfChar c ++ us) := by
  have named : ∀ {x : Char} {unit : UInt16}, (x, unit) ∈ namedEscapes →
      SpellsUnits quote (['\\', x] ++ cs) ([unit] ++ us) :=
    fun name => .escape (.named name) more
  unfold escapedChar
  split_ifs with backspace tab newline feed carriage backslash same control
  · rw [backspace]
    exact named (by decide)
  · rw [tab]
    exact named (by decide)
  · rw [newline]
    exact named (by decide)
  · rw [feed]
    exact named (by decide)
  · rw [carriage]
    exact named (by decide)
  · rw [backslash]
    exact named (by decide)
  · rw [same]
    rcases kind with rfl | rfl
    · exact named (by decide)
    · exact named (by decide)
  · have small : c.toNat < 0x10000 := by
      simp only [isControl, Bool.or_eq_true, decide_eq_true_eq, Bool.and_eq_true] at control
      omega
    obtain ⟨four, number⟩ := numberOf?_hexPadded small
    generalize (hexPadded 4 c.toNat).toList = ds at four number ⊢
    obtain ⟨-, digits, value⟩ := numberOf?_iff.1 number
    rw [unitsOfChar_of_lt small, value]
    exact .escape (.hex Nat.one_pos four digits) more
  · exact .raw same backslash more

/-- **A written text spells the units of the text.** -/
theorem spellsUnits_flatMap (kind : quote = '"' ∨ quote = '\'') (cs : List Char) :
    SpellsUnits quote (cs.flatMap (escapedChar quote)) (cs.flatMap unitsOfChar) := by
  induction cs with
  | nil => exact .nothing
  | cons c cs ih =>
      rw [List.flatMap_cons, List.flatMap_cons]
      exact spellsUnits_escapedChar kind ih

/-- The units of a text that was written between quotes are those of its characters. -/
lemma quotedUnits?_quotedChars (kind : quote = '"' ∨ quote = '\'') (cs : List Char) :
    quotedUnits? (quotedChars quote cs) = some (cs.flatMap unitsOfChar) := by
  have inner : unquote? (quotedChars quote cs) = some (cs.flatMap (escapedChar quote)) := by
    rw [quotedChars, List.cons_append, unquote?]
    simp [kind]
  rw [quotedUnits?, inner, ← (spellsUnits_flatMap kind cs).unescape]

/-- **A written text is the text again.** -/
theorem stringLiteral?_quotedChars (text : String) :
    stringLiteral? (quotedChars '"' text.toList) = some text := by
  rw [stringLiteral?, quotedUnits?_quotedChars (.inl rfl)]
  simp only [charsOfUnits_flatMap, Option.map_some, String.ofList_toList]

/-- **A written character of the basic plane is the character again.** -/
theorem charLiteral?_quotedChars (small : c.toNat < 0x10000) :
    charLiteral? (quotedChars '\'' [c]) = some c := by
  have unit : (UInt16.ofNat c.toNat).toNat = c.toNat := UInt16.toNat_ofNat_of_lt small
  rw [charLiteral?, quotedUnits?_quotedChars (.inr rfl), List.flatMap_singleton,
    unitsOfChar_of_lt small]
  simp only [unit, c.ofNat_toNat]
  exact if_pos c.valid

/-! ## Tokens -/

/-- **A written text or character is a single token.** -/
theorem isLexeme_quoted (kind : quote = '"' ∨ quote = '\'') (cs : List Char) :
    IsLexeme (if quote = '"' then .string else .char) (quotedChars quote cs) := by
  have length := (spellsUnits_flatMap kind cs).quotedLength kind []
  refine ⟨quote, cs.flatMap (escapedChar quote) ++ [quote], rfl, ?_, ?_, ?_⟩
  · rcases kind with rfl | rfl <;> decide
  · rcases kind with rfl | rfl <;> decide
  · rcases kind with rfl | rfl
    · simp [scanToken, scanQuoted, length]
    · simp [scanToken, scanQuoted, length]

end DocAnnotations
