import DocAnnotations.Proofs.Decimal.Rounding
import DocAnnotations.Proofs.Literal.Lone
import DocAnnotations.Proofs.Token.Floating
import DocAnnotations.TypeIndex

/-!
# What floating literals mean

A floating literal means the value of its type that is nearest to the decimal, if there is a finite
one that is not zero by rounding alone.  `BinaryFormat.closest_of_covers` says in which sense
`Dyadic.Covers` is nearest.

**Suffixes.**  `FloatingType` is one of the two types with what differs between them: the format,
the letter of its suffix and the letter of the other, which no literal for it may have.

**Values.**  `FloatingText.Means` is the relation of a literal to the patterns it may mean, which
mentions no rounding.  **`floating_literals`**: a text that is read as a floating literal has a
value for an element of a floating type exactly if it is such a literal, with no suffix but that of
the type, and in range; it has this value, with its sign.
-/

namespace DocAnnotations

open Text Decimal

/-! ## Suffixes -/

variable {c : Char}

/-- What is a letter in lower case is it, or the capital of it. -/
lemma eq_of_toLower {small large : Char} (lower : c.toLower = small)
    (all : ∀ n ∈ List.range' 65 26, (Char.ofNat n).toLower = small → Char.ofNat n = large) :
    c = small ∨ c = large := by
  by_cases capital : 65 ≤ c.toNat ∧ c.toNat ≤ 90
  · rw [← c.ofNat_toNat] at lower ⊢
    exact .inr (all _ (List.mem_range'_1.2 ⟨capital.1, Nat.lt_succ_of_le capital.2⟩) lower)
  · have same : c.toLower = c := dif_neg capital
    exact .inl (same.symm.trans lower)

/-- The floating types. -/
inductive FloatingType where
  | float
  | double
deriving DecidableEq

namespace FloatingType

/-- The format of the type. -/
def format : FloatingType → BinaryFormat
  | float => single
  | double => Decimal.double

/-- The type as elements are declared with it. -/
def elementType : FloatingType → ElementType
  | float => .float
  | double => .double

/-- The suffix of the type, in lower case. -/
def own : FloatingType → Char
  | float => 'f'
  | double => 'd'

/-- The suffix of the other type, in lower case. -/
def other : FloatingType → Char
  | float => 'd'
  | double => 'f'

/-- The suffixes that literals of the type may have. -/
def suffixes : FloatingType → List Char
  | float => ['f', 'F']
  | double => ['d', 'D']

/-- The pattern that a value of the type is. -/
def pattern? : FloatingType → Value → Option Nat
  | float, .float bits => some bits.toNat
  | double, .double bits => some bits.toNat
  | _, _ => none

/-- The value with a pattern. -/
def ofPattern : FloatingType → Nat → Value
  | float, bits => .float (UInt32.ofNat bits)
  | double, bits => .double (UInt64.ofNat bits)

variable {type : FloatingType} {bits : Nat} {v : Value} {cs : List Char}
  {types : TypeLookup} {element : String}

lemma moderate : type.format.Moderate := by
  cases type
  · exact BinaryFormat.moderate_single
  · exact BinaryFormat.moderate_double

lemma fractionBits_pos : 0 < type.format.fractionBits := by cases type <;> decide

/-- Patterns of the format are values of the type. -/
lemma pattern?_eq_iff (bound : bits < 2 * type.format.signBit) :
    type.pattern? v = some bits ↔ v = type.ofPattern bits := by
  cases type with
  | float =>
      have small : bits < UInt32.size := bound
      constructor
      · intro same
        cases v <;> cases same
        exact congrArg Value.float UInt32.ofNat_toNat.symm
      · rintro rfl
        exact congrArg some (UInt32.toNat_ofNat_of_lt small)
  | double =>
      have small : bits < UInt64.size := bound
      constructor
      · intro same
        cases v <;> cases same
        exact congrArg Value.double UInt64.ofNat_toNat.symm
      · rintro rfl
        exact congrArg some (UInt64.toNat_ofNat_of_lt small)

/-- Only faults are renamed on the way from a pattern to a value. -/
lemma literalValue_ok_iff {text : String} :
    literalValue types element .float text type.elementType = .ok v ↔
      ∃ bits, floatingLiteral type.format type.own type.other text.toList = .ok bits ∧
        v = type.ofPattern bits := by
  cases type <;>
  · simp only [literalValue, elementType, format, own, other, floatingValue, if_true]
    split
    · next bits read =>
      rw [read]
      constructor
      · rintro ⟨⟩
        exact ⟨bits, rfl, rfl⟩
      · rintro ⟨_, ⟨⟩, rfl⟩
        rfl
    all_goals
      next failed =>
      rw [failed]
      constructor
      · rintro ⟨⟩
      · rintro ⟨_, ⟨⟩, -⟩

/-- A character ends a floating literal if and only if it is the suffix of one of the two types, in
either case. -/
lemma isFloatSuffix_iff : NumberText.isFloatSuffix c = true ↔
    c.toLower = type.own ∨ c.toLower = type.other := by
  have letters : NumberText.isFloatSuffix c = true ↔ c.toLower = 'f' ∨ c.toLower = 'd' := by
    rw [NumberText.isFloatSuffix_iff]
    constructor
    · rintro (rfl | rfl | rfl | rfl) <;> decide
    · rintro (lower | lower)
      · have either : c = 'f' ∨ c = 'F' := eq_of_toLower lower (by decide)
        tauto
      · have either : c = 'd' ∨ c = 'D' := eq_of_toLower lower (by decide)
        tauto
  rw [letters]
  cases type with
  | float => exact Iff.rfl
  | double => exact or_comm

/-- The suffixes of a type are its letter in either case. -/
lemma mem_suffixes_iff : c ∈ type.suffixes ↔ c.toLower = type.own := by
  cases type with
  | float =>
      refine ⟨fun mem => ?_, fun lower => List.mem_pair.2 (eq_of_toLower lower (by decide))⟩
      rcases List.mem_pair.1 mem with rfl | rfl <;> decide
  | double =>
      refine ⟨fun mem => ?_, fun lower => List.mem_pair.2 (eq_of_toLower lower (by decide))⟩
      rcases List.mem_pair.1 mem with rfl | rfl <;> decide

variable (type) in
lemma own_mem_suffixes : ∀ c ∈ some type.own, c ∈ type.suffixes := by
  rintro c ⟨⟩
  exact mem_suffixes_iff.2 (by cases type <;> rfl)

/-- Neither signs nor decimals end with a letter of a suffix. -/
lemma not_suffix {sign : List Char} {t : UnsignedText} (signed : IsSign sign)
    (mem : c ∈ sign ++ t.chars) : c.toLower ≠ type.own ∧ c.toLower ≠ type.other := by
  have plain : c.isDigit = true ∨ c = '.' ∨ c = 'e' ∨ c = 'E' ∨ c = '+' ∨ c = '-' := by
    rcases List.mem_append.1 mem with mem | mem
    · exact .inr (.inr (.inr (.inr (signed.mem mem))))
    · exact t.mem_chars mem
  have letters : c.toLower ≠ 'f' ∧ c.toLower ≠ 'd' := by
    rcases plain with digit | rfl | rfl | rfl | rfl | rfl
    · exact of_isDigit (P := fun c => c.toLower ≠ 'f' ∧ c.toLower ≠ 'd') (by decide) digit
    all_goals decide
  cases type with
  | float => exact letters
  | double => exact letters.symm

/-- A literal is read without the suffix of its type, and not at all with the other one. -/
lemma floatingLiteral_chars (t : FloatingText) :
    (∀ c ∈ t.suffix, c ∈ type.suffixes) ∧ floatingLiteral type.format type.own type.other t.chars
        = floatingOfChars type.format ((if t.negative then ['-'] else []) ++ t.decimal.chars) ∨
      ¬(∀ c ∈ t.suffix, c ∈ type.suffixes) ∧
        floatingLiteral type.format type.own type.other t.chars = .error .otherSuffix := by
  have apart : type.own ≠ type.other := by cases type <;> decide
  have floating := t.isFloatSuffix
  rw [FloatingText.chars, ← List.append_assoc, floatingLiteral]
  cases suffix : t.suffix with
  | none =>
      left
      obtain ⟨last, ending⟩ := Option.isSome_iff_exists.1
        (List.getLast?_isSome.2 (List.append_ne_nil_of_right_ne_nil _ t.decimal.chars_ne_nil))
      obtain ⟨own, other⟩ := type.not_suffix (isSign_minus t.negative) (List.mem_of_getLast? ending)
      rw [Option.toList_none, List.append_nil, ending, Option.map_some]
      simp [own, other]
  | some c =>
      rw [Option.toList_some, List.getLast?_concat, List.dropLast_concat, Option.map_some]
      dsimp only
      rcases isFloatSuffix_iff.1 (floating c suffix) with lower | lower
      · left
        refine ⟨?_, by rw [if_neg (lower ▸ apart), if_pos lower]⟩
        rintro d ⟨⟩
        exact mem_suffixes_iff.2 lower
      · right
        refine ⟨fun all => apart ?_, if_pos lower⟩
        exact (mem_suffixes_iff.1 (all c rfl)).symm.trans lower

/-- What has a value is a floating literal. -/
lemma exists_of_floatingLiteral (lexeme : IsLexeme .float cs)
    (read : floatingLiteral type.format type.own type.other cs = .ok bits) :
    ∃ t : FloatingText, t.chars = cs := by
  have decimal : ∀ {front : List Char} (suffix : Option Char), cs = front ++ suffix.toList →
      (∀ c ∈ suffix, NumberText.isFloatSuffix c = true) →
      floatingOfChars type.format front = .ok bits → ∃ t : FloatingText, t.chars = cs := by
    intro front suffix whole floating read
    obtain ⟨x, numeral, -⟩ :=
      (floatingOfChars_ok_iff type.moderate type.fractionBits_pos).1 read
    obtain ⟨sign, t, signed, rfl, -⟩ := Numeral.ofChars?_iff.1 numeral
    rw [List.append_assoc] at whole
    subst whole
    obtain ⟨u, same, -⟩ := exists_floatingText lexeme signed floating
    exact ⟨u, same⟩
  rw [floatingLiteral] at read
  split at read
  · cases read
  · next last lower =>
    obtain ⟨c, ending, rfl⟩ := Option.map_eq_some_iff.1 lower
    split_ifs at read with other own
    · have whole : cs = cs.dropLast ++ [c] := (List.dropLast_append_getLast? c ending).symm
      refine decimal (some c) whole ?_ read
      rintro d ⟨⟩
      exact isFloatSuffix_iff.2 (.inl own)
    · exact decimal none (List.append_nil cs).symm nofun read

end FloatingType

/-! ## Values -/

/-- The rational that a decimal is. -/
def Decimal.UnsignedText.rational (t : UnsignedText) : ℚ :=
  placeValue 10 t.digits * 10 ^ (t.power - (t.fraction.getD []).length)

namespace FloatingText

variable (t : FloatingText) {type : FloatingType} {bits : Nat} {v : Value}

/-- The values that the literal has in a type: one that is nearest to the decimal, is zero only
without other digits, and has the sign of the literal. -/
def Means (type : FloatingType) (v : Value) : Prop :=
  ∃ m < type.format.infinity, (type.format.toDyadic m).Covers t.decimal.rational ∧
    (m = 0 → ∀ d ∈ t.decimal.digits, d = '0') ∧
    type.pattern? v = some (type.format.withSign t.negative m)

/-- A decimal behind a sign is read as a pattern if and only if the pattern covers it, is finite,
and is zero only for a decimal of zeros. -/
lemma floatingOfChars_chars_iff :
    floatingOfChars type.format ((if t.negative then ['-'] else []) ++ t.decimal.chars) = .ok bits ↔
      ∃ m < type.format.infinity, (type.format.toDyadic m).Covers t.decimal.rational ∧
        (m = 0 → ∀ d ∈ t.decimal.digits, d = '0') ∧
        bits = type.format.withSign t.negative m := by
  have zero := placeValue_eq_zero_iff (b := 10) (by decide) t.decimal.isDigit_digits
  rw [floatingOfChars_ok_iff type.moderate type.fractionBits_pos,
    UnsignedText.ofChars?_chars (isSign_minus t.negative), minus_beq, ← zero]
  constructor
  · rintro ⟨x, ⟨⟩, covered⟩
    exact covered
  · intro covered
    exact ⟨_, rfl, covered⟩

/-- A literal has a value for a type exactly with no suffix but that of the type. -/
lemma literalValue_chars_iff {types : TypeLookup} {element : String} :
    literalValue types element .float (String.ofList t.chars) type.elementType = .ok v ↔
      (∀ c ∈ t.suffix, c ∈ type.suffixes) ∧ t.Means type v := by
  rw [FloatingType.literalValue_ok_iff, String.toList_ofList]
  rcases FloatingType.floatingLiteral_chars t with ⟨suffixed, read⟩ | ⟨other, failed⟩
  · rw [read, and_iff_right suffixed]
    constructor
    · rintro ⟨bits, read, rfl⟩
      obtain ⟨m, finite, covers, zero, rfl⟩ := t.floatingOfChars_chars_iff.1 read
      exact ⟨m, finite, covers, zero,
        (FloatingType.pattern?_eq_iff (BinaryFormat.withSign_lt finite.le _)).2 rfl⟩
    · rintro ⟨m, finite, covers, zero, pattern⟩
      exact ⟨_, t.floatingOfChars_chars_iff.2 ⟨m, finite, covers, zero, rfl⟩,
        (FloatingType.pattern?_eq_iff (BinaryFormat.withSign_lt finite.le _)).1 pattern⟩
  · rw [failed]
    constructor
    · rintro ⟨bits, ⟨⟩, -⟩
    · exact fun meant => absurd meant.1 other

end FloatingText

/-- **Floating literals mean the nearest value.**  For an element of a floating type, a text is read
as a floating literal and has a value exactly if between blanks it is such a literal, with no suffix
but that of the type, and a finite value covers it, zero only without other digits.  Whatever its
digits, each floating literal is one token. -/
theorem floating_literals (l : Loader) (interface element text : String) (type : FloatingType)
    (r : Registry) :
    (∀ v, (∃ name span r', Node.parse text = .ok (.literal .float name span) ∧
        resolveValue l interface element (.literal .float name span) type.elementType r
          = .ok v r') ↔
      ∃ t : FloatingText, t.chars = trim text.toList ∧ (∀ c ∈ t.suffix, c ∈ type.suffixes) ∧
        t.Means type v) ∧
    ∀ t : FloatingText, t.chars = trim text.toList → ∃ token closing,
      tokenize text = .ok [token, closing] ∧ token.kind = .float ∧
        token.text = String.ofList t.chars ∧ closing.kind = .endOfInput := by
  constructor
  · intro v
    constructor
    · rintro ⟨name, span, r', parsed, ran⟩
      obtain ⟨kind, raw, lexeme, trimmed, -⟩ := parse_literal_iff.1 parsed
      obtain rfl : kind = .float := by cases kind <;> first | rfl | cases raw
      have valued := (resolveValue_literal_ok.1 ran).1
      obtain ⟨bits, read, -⟩ := FloatingType.literalValue_ok_iff.1 valued
      obtain ⟨t, same⟩ := FloatingType.exists_of_floatingLiteral lexeme read
      rw [← String.ofList_toList (s := name), ← same] at valued
      exact ⟨t, same.trans trimmed.symm, t.literalValue_chars_iff.1 valued⟩
    · rintro ⟨t, same, meant⟩
      have parsed : Node.parse text = _ := parse_literal_iff.2 ⟨.float, rfl,
        by rw [String.toList_ofList]; exact t.isLexeme, by rw [String.toList_ofList, same], rfl⟩
      exact ⟨_, _, r, parsed, resolveValue_literal_ok.2 ⟨t.literalValue_chars_iff.2 meant, rfl⟩⟩
  · intro t same
    obtain ⟨tail, back, whole⟩ := exists_tail text.toList
    rw [← same] at whole
    obtain ⟨stop, tokens⟩ :=
      tokenize_lexeme t.isLexeme whole (fun c => isBlank_of_mem_leading) back
    exact ⟨_, _, tokens, rfl, rfl, rfl⟩

/-- A zero with all the parts that a literal may have, and no digit behind its point. -/
def FloatingText.minusZero : FloatingText where
  negative := true
  decimal :=
    { whole := ['0'], fraction := some [], exponent := ['e', '7'], power := 7
      isDigit_whole := List.forall_mem_singleton.2 rfl
      isDigit_fraction := List.forall_mem_nil _
      digits_ne_nil := by decide
      isExponent := @IsExponent.power 'e' [] ['7'] (.inl rfl) (.inl rfl) (by decide)
        (List.forall_mem_singleton.2 rfl) }
  suffix := some 'F'
  isFloatSuffix := by
    rintro c ⟨⟩
    rfl
  marked := .inl rfl

/-- A zero keeps its sign. -/
theorem floating_literals_minusZero :
    ∃ name span r', Node.parse " -0.e7F" = .ok (.literal .float name span) ∧
      resolveValue (TypeIndex.empty.loader ⟨0⟩) "p.A" "v" (.literal .float name span) .float .empty
        = .ok (.float 0x80000000) r' := by
  have covers : (single.toDyadic 0).Covers FloatingText.minusZero.decimal.rational :=
    BinaryFormat.covers_zero 7
  have own : ∀ c ∈ FloatingText.minusZero.suffix, c ∈ FloatingType.float.suffixes := by
    rintro c ⟨⟩
    decide
  exact ((floating_literals (TypeIndex.empty.loader ⟨0⟩) "p.A" "v" " -0.e7F" .float .empty).1
    _).2 ⟨.minusZero, by decide, own, 0, by decide, covers,
      fun _ => List.forall_mem_singleton.2 rfl, by decide⟩

end DocAnnotations
