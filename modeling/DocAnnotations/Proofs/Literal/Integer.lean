import DocAnnotations.Proofs.Literal.Lone

/-!
# What integer literals mean

An integer is written with an optional minus sign, digits in one of three bases, and an optional
suffix for longs.  `IntegerText` has these parts, and `IntegerText.chars` puts them together.

**Ranges.**  Which value a literal has depends on the width of the type it is for: decimal literals,
and all literals of the narrow types, mean the signed number; octal and hexadecimal literals of
`int` and `long` may use all bits and then mean the number modulo `2 ^ w`. `IntegerText.InRange` and
`IntegerText.meaning` say so, without reference to how the bits are found.

**Integer types.**  `IntegerType` is one of the four types, with its width and what its values are
numbers of.

**`integer_literals`**: a text has a value for an element of an integer type exactly if it is such a
literal in the range of the type; it has this value, and literals outside the range are reported as
such.
-/

namespace DocAnnotations

open Text

/-! ## Literals as they are written -/

/-- The digits of a whole number, the base that they are read in, and the mark in front of them. -/
inductive IsWhole : (mark : List Char) → (base : Nat) → (digits : List Char) → Prop
  | zero : IsWhole [] 10 ['0']
  | decimal {d : Char} {ds : List Char} (first : d ≠ '0')
      (digits : ∀ c ∈ d :: ds, c.isDigit = true) : IsWhole [] 10 (d :: ds)
  | octal {ds : List Char} (nonempty : ds ≠ []) (digits : ∀ c ∈ ds, isOctalDigit c = true) :
      IsWhole ['0'] 8 ds
  | hex {x : Char} {ds : List Char} (letter : x = 'x' ∨ x = 'X') (nonempty : ds ≠ [])
      (digits : ∀ c ∈ ds, isHexDigit c = true) : IsWhole ['0', x] 16 ds

/-- An integer literal as it is written. -/
structure IntegerText where
  negative : Bool
  mark : List Char
  base : Nat
  digits : List Char
  suffix : List Char
  whole : IsWhole mark base digits
  long : IsLongSuffix suffix

namespace IntegerText

variable (t : IntegerText)

/-- The text of the literal. -/
def chars : List Char :=
  (if t.negative then ['-'] else []) ++ (t.mark ++ t.digits ++ t.suffix)

/-- The number without its sign. -/
def magnitude : Nat := placeValue t.base t.digits

/-- The number. -/
def signed : Int := if t.negative then -t.magnitude else t.magnitude

/-- Literals of the wide types that are not decimal may use the sign bit. -/
def usesAllBits (w : Nat) : Bool := 32 ≤ w && t.base != 10

/-- What a type of the given width has a value for. -/
def InRange (w : Nat) : Prop :=
  if t.usesAllBits w then t.magnitude < 2 ^ w
  else -2 ^ (w - 1) ≤ t.signed ∧ t.signed < 2 ^ (w - 1)

/-- The value in a type of the given width, in two's complement where all bits may be used. -/
def meaning (w : Nat) : Int :=
  if t.usesAllBits w then t.signed.bmod (2 ^ w) else t.signed

/-- The parts that the resolver gets from the text. -/
def literal : IntegerLiteral := ⟨t.negative, t.magnitude, t.base, !t.suffix.isEmpty⟩

end IntegerText

/-! ## Taking literals apart -/

variable {cs ds mark suffix : List Char} {base m : Nat} {c : Char}

namespace IsWhole

/-- What is written in a base consists of digits of this base. -/
lemma digitOf? (h : IsWhole mark base ds) : ∀ c ∈ ds, (Text.digitOf? base c).isSome := by
  cases h with
  | zero => exact List.forall_mem_singleton.2 rfl
  | decimal first digits => exact fun c mem => isSome_digitOf?_iff.2 (digits c mem)
  | octal nonempty digits => exact digits
  | hex letter nonempty digits => exact digits

lemma ne_nil (h : IsWhole mark base ds) : ds ≠ [] := by
  cases h with
  | zero | decimal => exact List.cons_ne_nil _ _
  | octal nonempty | hex _ nonempty => exact nonempty

/-- The digits and marks of whole numbers are hexadecimal digits, or the mark of these. -/
lemma front (h : IsWhole mark base ds) :
    ∃ c cs, mark ++ ds = c :: cs ∧ c.isDigit = true := by
  cases h with
  | zero => exact ⟨'0', [], rfl, by decide⟩
  | @decimal d ds first digits => exact ⟨d, ds, rfl, digits d List.mem_cons_self⟩
  | octal => exact ⟨'0', _, rfl, by decide⟩
  | hex => exact ⟨'0', _, rfl, by decide⟩

/-- The digits are what is read behind the mark. -/
lemma splitBase (h : IsWhole mark base ds) :
    IntegerLiteral.splitBase (mark ++ ds) = (base, ds) := by
  cases h with
  | zero => rfl
  | decimal first =>
      rw [List.nil_append, IntegerLiteral.splitBase.eq_def]
      split <;> first | rfl | next same => exact absurd (List.cons.inj same).1 first
  | @octal ds nonempty digits =>
      obtain ⟨d, ds, rfl⟩ := List.exists_cons_of_ne_nil nonempty
      have digit := digits d List.mem_cons_self
      rw [List.singleton_append, IntegerLiteral.splitBase]
      all_goals
        rintro rfl
        cases digit
  | hex letter => rcases letter with rfl | rfl <;> rfl

end IsWhole

/-- What is read as a number behind a mark is a whole number. -/
lemma isWhole_of_splitBase (split : IntegerLiteral.splitBase cs = (base, ds))
    (number : numberOf? base ds = some m) : ∃ mark, cs = mark ++ ds ∧ IsWhole mark base ds := by
  obtain ⟨nonempty, digits, -⟩ := numberOf?_iff.1 number
  unfold IntegerLiteral.splitBase at split
  split at split
  · cases split
    exact ⟨_, rfl, .hex (.inl rfl) nonempty digits⟩
  · cases split
    exact ⟨_, rfl, .hex (.inr rfl) nonempty digits⟩
  · cases split
    exact ⟨_, rfl, .octal nonempty digits⟩
  · next octal =>
    cases split
    obtain ⟨d, ds, rfl⟩ := List.exists_cons_of_ne_nil nonempty
    refine ⟨[], rfl, ?_⟩
    by_cases zero : d = '0'
    · subst zero
      cases ds with
      | nil => exact .zero
      | cons d ds => exact absurd rfl (octal d ds)
    · exact .decimal zero fun c mem => isSome_digitOf?_iff.1 (digits c mem)

/-- A long suffix is taken off, and nothing else. -/
lemma splitSuffix_iff {front : List Char} {long : Bool} :
    IntegerLiteral.splitSuffix cs = (front, long) ↔ ∃ suffix, IsLongSuffix suffix ∧
      cs = front ++ suffix ∧ long = !suffix.isEmpty ∧
      (suffix = [] → ∀ c ∈ front.getLast?, c ≠ 'l' ∧ c ≠ 'L') := by
  constructor
  · intro split
    unfold IntegerLiteral.splitSuffix at split
    split at split
    · next last =>
      cases split
      exact ⟨['l'], .inr (.inl rfl), (List.dropLast_append_getLast? _ last).symm, rfl, nofun⟩
    · next last =>
      cases split
      exact ⟨['L'], .inr (.inr rfl), (List.dropLast_append_getLast? _ last).symm, rfl, nofun⟩
    · next small large =>
      cases split
      exact ⟨[], .inl rfl, (List.append_nil cs).symm, rfl, fun _ c last =>
        ⟨(by rintro rfl; exact small last), (by rintro rfl; exact large last)⟩⟩
  · rintro ⟨suffix, long, rfl, rfl, bare⟩
    unfold IntegerLiteral.splitSuffix
    rcases long with rfl | rfl | rfl
    · rw [List.append_nil]
      split
      · next last => exact absurd rfl (bare rfl _ last).1
      · next last => exact absurd rfl (bare rfl _ last).2
      · rfl
    · rw [List.getLast?_concat, List.dropLast_concat]
      rfl
    · rw [List.getLast?_concat, List.dropLast_concat]
      rfl

/-- The digits of a literal do not end in the suffix. -/
lemma IsWhole.last (h : IsWhole mark base ds) :
    ∀ c ∈ (mark ++ ds).getLast?, c ≠ 'l' ∧ c ≠ 'L' := by
  intro c last
  rw [List.getLast?_append_of_ne_nil _ h.ne_nil] at last
  have digit := h.digitOf? c (List.mem_of_getLast? last)
  have small : base ≤ 16 := by cases h <;> decide
  have value : digitValue? 'l' = some 21 ∧ digitValue? 'L' = some 21 := ⟨rfl, rfl⟩
  constructor <;> rintro rfl
  · rw [Text.digitOf?, value.1] at digit
    simp [show ¬21 < base by omega] at digit
  · rw [Text.digitOf?, value.2] at digit
    simp [show ¬21 < base by omega] at digit

/-- A literal is read by taking off the sign, then the suffix, and then the mark of the base. -/
lemma ofChars?_eq (cs : List Char) : IntegerLiteral.ofChars? cs =
    let (front, long) := IntegerLiteral.splitSuffix (NumberText.splitSign cs).2
    let (base, digits) := IntegerLiteral.splitBase front
    (numberOf? base digits).map fun m =>
      ⟨!(NumberText.splitSign cs).1.isEmpty, m, base, long⟩ := by
  cases cs with
  | nil => rfl
  | cons c cs =>
      by_cases minus : c = '-'
      · subst minus
        rfl
      · simp [IntegerLiteral.ofChars?, NumberText.splitSign, minus]

lemma isEmpty_sign (negative : Bool) :
    (!(if negative then ['-'] else []).isEmpty) = negative := by
  cases negative <;> rfl

namespace IntegerText

variable (t : IntegerText)

/-- The parts that are read are those that were written. -/
lemma ofChars?_chars : IntegerLiteral.ofChars? t.chars = some t.literal := by
  obtain ⟨c, cs, front, digit⟩ := t.whole.front
  have suffix : IntegerLiteral.splitSuffix (t.mark ++ t.digits ++ t.suffix)
      = (t.mark ++ t.digits, !t.suffix.isEmpty) :=
    splitSuffix_iff.2 ⟨t.suffix, t.long, rfl, rfl, fun _ => t.whole.last⟩
  have number : numberOf? t.base t.digits = some t.magnitude :=
    numberOf?_iff.2 ⟨t.whole.ne_nil, t.whole.digitOf?, rfl⟩
  have first : ∀ c ∈ (t.mark ++ t.digits ++ t.suffix).head?, c.isDigit = true := by
    rw [front]
    rintro _ ⟨⟩
    exact digit
  have signs := NumberText.splitSign_eq t.negative first
  rw [ofChars?_eq, chars, signs]
  simp only [suffix, t.whole.splitBase, number, Option.map_some, literal, isEmpty_sign]

/-- Nothing else is read as an integer. -/
theorem ofChars?_iff {n : IntegerLiteral} :
    IntegerLiteral.ofChars? cs = some n ↔ ∃ t : IntegerText, t.chars = cs ∧ t.literal = n := by
  constructor
  · intro read
    rw [ofChars?_eq] at read
    obtain ⟨front, long, split⟩ : ∃ front long, IntegerLiteral.splitSuffix
      (NumberText.splitSign cs).2 = (front, long) := ⟨_, _, rfl⟩
    obtain ⟨base, digits, split'⟩ : ∃ base digits, IntegerLiteral.splitBase front
      = (base, digits) := ⟨_, _, rfl⟩
    simp only [split, split'] at read
    obtain ⟨m, number, rfl⟩ := Option.map_eq_some_iff.1 read
    obtain ⟨mark, rfl, whole⟩ := isWhole_of_splitBase split' number
    obtain ⟨suffix, suffixed, body, rfl, -⟩ := splitSuffix_iff.1 split
    obtain ⟨negative, sign⟩ : ∃ negative : Bool,
        (NumberText.splitSign cs).1 = if negative then ['-'] else [] := by
      rcases NumberText.splitSign_fst cs with sign | sign
      · exact ⟨false, sign⟩
      · exact ⟨true, sign⟩
    have join := NumberText.splitSign_join cs
    rw [body, sign] at join
    refine ⟨⟨negative, mark, base, digits, suffix, whole, suffixed⟩, join, ?_⟩
    rw [literal, magnitude, sign, isEmpty_sign, (numberOf?_iff.1 number).2.2]
  · rintro ⟨t, rfl, rfl⟩
    exact t.ofChars?_chars

/-- Every integer literal is one token of a kind that integer types take. -/
theorem exists_isLexeme : ∃ (kind : TokenKind) (raw : LiteralKind),
    kind.literalKind? = some raw ∧ raw.isWhole = true ∧ IsLexeme kind t.chars := by
  obtain ⟨negative, mark, base, ds, suffix, whole, long⟩ := t
  have plain : ∀ digits : List Char, digits ≠ [] → (∀ c ∈ digits, c.isDigit = true) →
      ∃ (kind : TokenKind) (raw : LiteralKind), kind.literalKind? = some raw ∧
        raw.isWhole = true ∧
        IsLexeme kind ((if negative then ['-'] else []) ++ (digits ++ suffix)) := by
    intro digits nonempty digit
    have lexeme := isLexeme_whole negative nonempty digit long
    rcases NumberText.wholeKind_eq digits with kind | kind
    · exact ⟨.octal, .octal, rfl, rfl, kind ▸ lexeme⟩
    · exact ⟨.integer, .integer, rfl, rfl, kind ▸ lexeme⟩
  cases whole with
  | zero => exact plain ['0'] (by simp) (List.forall_mem_singleton.2 rfl)
  | decimal first digits => exact plain _ (by simp) digits
  | octal nonempty digits =>
      refine plain ('0' :: ds) (by simp) (List.forall_mem_cons.2 ⟨by decide, fun c mem => ?_⟩)
      exact isSome_digitOf?_iff.1 (isSome_digitOf?_of_le (by decide) (digits c mem))
  | hex letter nonempty digits =>
      exact ⟨.hex, .hex, rfl, rfl, isLexeme_hex negative letter digits long⟩

/-! ### Ranges -/

instance (w : Nat) : Decidable (t.InRange w) :=
  inferInstanceAs (Decidable (if t.usesAllBits w then _ else _ ∧ _))

variable {w : Nat}

/-- A signed type has as many negative numbers as others. -/
lemma two_pow_double (wide : 0 < w) : 2 ^ w = 2 * 2 ^ (w - 1) := by
  rw [← Nat.pow_succ', Nat.succ_eq_add_one, Nat.sub_add_cancel wide]

/-- The numbers of the half range stay as they are in two's complement. -/
lemma bmod_signed (wide : 0 < w) (low : -2 ^ (w - 1) ≤ t.signed) (high : t.signed < 2 ^ (w - 1)) :
    t.signed.bmod (2 ^ w) = t.signed := by
  have double := two_pow_double wide
  zify at double
  exact Int.bmod_eq_of_le_mul_two (by push_cast; omega) (by push_cast; omega)

/-- What is in no half range is one turn away. -/
lemma bmod_signed_of_outside (wide : 0 < w) (half : 2 ^ (w - 1) ≤ t.magnitude)
    (least : t.negative = true → t.magnitude ≠ 2 ^ (w - 1)) (full : t.magnitude < 2 ^ w) :
    t.signed.bmod (2 ^ w) = if t.negative then -(t.magnitude - 2 ^ w : Int)
      else t.magnitude - 2 ^ w := by
  have double := two_pow_double wide
  zify at double half full
  rw [signed]
  split_ifs with negative
  · have apart := least negative
    zify at apart
    rw [← Int.add_bmod_right, Int.bmod_eq_of_le_mul_two] <;> push_cast <;> omega
  · rw [← Int.sub_bmod_right, Int.bmod_eq_of_le_mul_two] <;> push_cast <;> omega

/-- The half range in terms of the magnitude. -/
lemma magnitude_half_iff :
    (t.magnitude < 2 ^ (w - 1) ∨ t.negative = true ∧ t.magnitude = 2 ^ (w - 1)) ↔
      -2 ^ (w - 1) ≤ t.signed ∧ t.signed < 2 ^ (w - 1) := by
  have cast : (2 : Int) ^ (w - 1) = (2 ^ (w - 1) : Nat) := by push_cast; rfl
  have positive : 0 < 2 ^ (w - 1) := Nat.two_pow_pos (w - 1)
  rw [signed, cast]
  generalize 2 ^ (w - 1) = half at positive ⊢
  cases t.negative with
  | false => simp
  | true =>
      simp only [true_and, if_true, neg_le_neg_iff]
      omega

/-- A literal is fitted into the half range first, else one turn away into the whole range. -/
lemma fit?_eq : t.literal.fit? w =
    if -2 ^ (w - 1) ≤ t.signed ∧ t.signed < 2 ^ (w - 1) then some t.signed
    else if t.usesAllBits w = true ∧ t.magnitude < 2 ^ w then
      some (if t.negative then -(t.magnitude - 2 ^ w : Int) else t.magnitude - 2 ^ w)
    else none := by
  have all : (decide (32 ≤ w) && t.literal.base != 10) = t.usesAllBits w := rfl
  simp only [IntegerLiteral.fit?, all, IntegerLiteral.signed?, Nat.pow_eq, Bool.or_eq_true,
    Bool.and_eq_true, decide_eq_true_eq]
  simp only [literal, magnitude_half_iff]
  push_cast
  by_cases inside : -2 ^ (w - 1) ≤ t.signed ∧ t.signed < 2 ^ (w - 1)
  · rw [if_pos inside, if_pos inside, Option.map_some, signed]
    rfl
  · rw [if_neg inside, if_neg inside, apply_ite (Option.map _), Option.map_some,
      Option.map_none]
    rfl

/-- The value of a literal in a type is what it means there, if the type has it. -/
lemma fit?_literal (wide : 0 < w) :
    t.literal.fit? w = if t.InRange w then some (t.meaning w) else none := by
  have least : 2 ^ (w - 1) < 2 ^ w := Nat.pow_lt_pow_right (by decide) (by omega)
  have range : t.InRange w ↔ if t.usesAllBits w then t.magnitude < 2 ^ w
      else -2 ^ (w - 1) ≤ t.signed ∧ t.signed < 2 ^ (w - 1) := Iff.rfl
  rw [fit?_eq, meaning]
  by_cases inside : -2 ^ (w - 1) ≤ t.signed ∧ t.signed < 2 ^ (w - 1)
  · have full : t.magnitude < 2 ^ w := by
      rcases t.magnitude_half_iff.2 inside with less | ⟨-, same⟩ <;> omega
    rw [t.bmod_signed wide inside.1 inside.2, if_pos inside, ite_self,
      if_pos (range.2 (by split_ifs; exacts [full, inside]))]
  · obtain ⟨half, apart⟩ := not_or.1 fun outside => inside (t.magnitude_half_iff.1 outside)
    rw [if_neg inside]
    cases all : t.usesAllBits w with
    | false => simp [range, all, inside]
    | true =>
        by_cases full : t.magnitude < 2 ^ w
        · rw [t.bmod_signed_of_outside wide (Nat.le_of_not_lt half)
            (fun negative same => apart ⟨negative, same⟩) full]
          simp [range, all, full]
        · simp [range, all, full]

/-- What a literal means in a type is one of its numbers. -/
lemma meaning_bounds (wide : 0 < w) (range : t.InRange w) :
    -2 ^ (w - 1) ≤ t.meaning w ∧ t.meaning w < 2 ^ (w - 1) := by
  have double := two_pow_double wide
  unfold InRange at range
  unfold meaning
  split_ifs at range ⊢
  · have low := Int.le_bmod (x := t.signed) (Nat.two_pow_pos w)
    have high := Int.bmod_lt (x := t.signed) (Nat.two_pow_pos w)
    zify at double
    push_cast at low high
    omega
  · exact range

end IntegerText

/-! ## Integer types -/

/-- The types of integers. -/
inductive IntegerType where
  | byte
  | short
  | int
  | long
deriving DecidableEq

namespace IntegerType

/-- The width of the type. -/
def bits : IntegerType → Nat
  | byte => 8
  | short => 16
  | int => 32
  | long => 64

/-- The type as elements are declared with it. -/
def elementType : IntegerType → ElementType
  | byte => .byte
  | short => .short
  | int => .int
  | long => .long

/-- The number that a value of the type is. -/
def number? : IntegerType → Value → Option Int
  | byte, .byte n => some n.toInt
  | short, .short n => some n.toInt
  | int, .int n => some n.toInt
  | long, .long n => some n.toInt
  | _, _ => none

/-- The value that is made of a number by keeping its low bits. -/
def narrowed : IntegerType → Int → Value
  | byte, n => .byte (Int8.ofInt n)
  | short, n => .short (Int16.ofInt n)
  | int, n => .int (Int32.ofInt n)
  | long, n => .long (Int64.ofInt n)

variable (type : IntegerType) {n : Int} {v : Value} {types : TypeLookup} {element text : String}
  {raw : LiteralKind}

/-- Keeping the low bits changes no number of the type. -/
lemma number?_narrowed (low : -2 ^ (type.bits - 1) ≤ n) (high : n < 2 ^ (type.bits - 1)) :
    type.number? (type.narrowed n) = some n := by
  cases type with
  | byte => exact congrArg some (Int8.toInt_ofInt_of_le low high)
  | short => exact congrArg some (Int16.toInt_ofInt_of_le low high)
  | int => exact congrArg some (Int32.toInt_ofInt_of_le low high)
  | long => exact congrArg some (Int64.toInt_ofInt_of_le low high)

/-- A value of a type is the one that its own number is narrowed to. -/
lemma eq_narrowed (same : type.number? v = some n) : v = type.narrowed n := by
  unfold number? at same
  split at same
  · cases same
    exact congrArg Value.byte (Int8.ofInt_toInt _).symm
  · cases same
    exact congrArg Value.short (Int16.ofInt_toInt _).symm
  · cases same
    exact congrArg Value.int (Int32.ofInt_toInt _).symm
  · cases same
    exact congrArg Value.long (Int64.ofInt_toInt _).symm
  · cases same

lemma bits_pos : 0 < type.bits := by cases type <;> decide

lemma isScalar : type.elementType.isScalar = true := by cases type <;> rfl

lemma bits_eq : type.bits = 64 ↔ type = .long := by cases type <;> decide

/-- A literal of a kind that integers have is read in the width of the type. -/
lemma literalValue_eq : literalValue types element raw text type.elementType =
    if raw.isWhole then
      (integerValue element type.elementType type.bits text).map type.narrowed
    else
      .error (.typeMismatch element type.elementType (Node.kindName (.literal raw text {}))) := by
  cases type <;>
  · simp only [literalValue, elementType, bits]
    split
    · cases integerValue element _ _ text <;> rfl
    · rfl

end IntegerType

/-! ## Reading -/

/-- A literal with a suffix is for long only; any other is read as its number, or is out of
range. -/
lemma integerValue_chars (t : IntegerText) (element : String) (type : IntegerType) :
    integerValue element type.elementType type.bits (String.ofList t.chars) =
      if t.suffix = [] ∨ type = .long then
        if t.InRange type.bits then .ok (t.meaning type.bits)
        else .error (.outOfRange element type.elementType (String.ofList t.chars))
      else .error (.typeMismatch element type.elementType "long") := by
  have misplaced : (t.literal.longSuffix && type.bits != 64) = true ↔
      ¬(t.suffix = [] ∨ type = .long) := by
    rw [← type.bits_eq]
    simp [IntegerText.literal]
  rw [integerValue, String.toList_ofList, t.ofChars?_chars]
  simp only [t.fit?_literal type.bits_pos]
  by_cases suffixed : t.suffix = [] ∨ type = .long
  · rw [if_neg (fun both => misplaced.1 both suffixed), if_pos suffixed]
    split_ifs <;> rfl
  · rw [if_pos (misplaced.2 suffixed), if_neg suffixed]

/-- Whatever is not refused as malformed is written as a literal is. -/
lemma exists_integerText {element text : String} {type : IntegerType}
    (valid : integerValue element type.elementType type.bits text
      ≠ .error (.invalidLiteral element type.elementType text)) :
    ∃ t : IntegerText, t.chars = text.toList := by
  unfold integerValue at valid
  split at valid
  · exact absurd rfl valid
  · next read =>
    obtain ⟨t, same, -⟩ := IntegerText.ofChars?_iff.1 read
    exact ⟨t, same⟩

namespace IntegerType

variable (type : IntegerType) {types : TypeLookup} {element : String} {raw : LiteralKind}
  {result : Except ResolveFault Value}

/-- What a literal with a suffix that suits the type comes to. -/
def resultOf (element : String) (t : IntegerText) : Except ResolveFault Value :=
  if t.InRange type.bits then .ok (type.narrowed (t.meaning type.bits))
  else .error (.outOfRange element type.elementType (String.ofList t.chars))

/-- Literals are read as such. -/
lemma literalValue_chars (t : IntegerText) (suffixed : t.suffix = [] ∨ type = .long) :
    ∃ (kind : TokenKind) (raw : LiteralKind), kind.literalKind? = some raw ∧
      IsLexeme kind t.chars ∧ literalValue types element raw (String.ofList t.chars)
        type.elementType = type.resultOf element t := by
  obtain ⟨kind, raw, literal, whole, lexeme⟩ := t.exists_isLexeme
  refine ⟨kind, raw, literal, lexeme, ?_⟩
  rw [type.literalValue_eq, if_pos whole, integerValue_chars, if_pos suffixed, resultOf]
  split_ifs <;> rfl

/-- Whatever is no fault of the form comes from a literal. -/
lemma exists_of_literalValue {cs : List Char}
    (read : literalValue types element raw (String.ofList cs) type.elementType = result)
    (matched : ∀ found, result ≠ .error (.typeMismatch element type.elementType found))
    (formed : result ≠ .error (.invalidLiteral element type.elementType (String.ofList cs))) :
    ∃ t : IntegerText, t.chars = cs ∧ (t.suffix = [] ∨ type = .long) ∧
      type.resultOf element t = result := by
  rw [type.literalValue_eq] at read
  split_ifs at read
  · have valid : integerValue element type.elementType type.bits (String.ofList cs)
        ≠ .error (.invalidLiteral element type.elementType (String.ofList cs)) := fun invalid =>
      formed (by rw [← read, invalid]; rfl)
    obtain ⟨t, same⟩ := exists_integerText valid
    rw [String.toList_ofList] at same
    subst same
    rw [integerValue_chars] at read
    by_cases suffixed : t.suffix = [] ∨ type = .long
    · refine ⟨t, rfl, suffixed, ?_⟩
      rw [← read, if_pos suffixed, resultOf]
      split_ifs <;> rfl
    · rw [if_neg suffixed] at read
      exact absurd read.symm (matched _)
  · exact absurd read.symm (matched _)

end IntegerType

/-! ## Written integers -/

/-- The digits of a number, zero included, are those of a decimal one. -/
lemma isWhole_toDigits (n : Nat) : IsWhole [] 10 (Nat.toDigits 10 n) := by
  rcases Nat.eq_zero_or_pos n with rfl | positive
  · exact .zero
  · have first := head?_toDigits_ne_zero n positive
    have digits := isDigit_toDigits n
    cases front : Nat.toDigits 10 n with
    | nil => exact absurd front Nat.toDigits_ne_nil
    | cons d ds =>
        rw [front] at first digits
        exact .decimal (fun zero => first (congrArg some zero)) digits

/-- An integer as it is written, longs with a suffix. -/
def IntegerText.ofInt (n : Int) (suffix : List Char) (long : IsLongSuffix suffix) :
    IntegerText where
  negative := decide (n < 0)
  mark := []
  base := 10
  digits := Nat.toDigits 10 n.natAbs
  suffix := suffix
  whole := isWhole_toDigits n.natAbs
  long := long

/-- A written integer means the number in every type that has it. -/
theorem literalValue_integerChars (type : IntegerType) {n : Int} {suffix : List Char}
    (suffixed : suffix = [] ∨ suffix = ['L'] ∧ type = .long) (types : TypeLookup)
    (element : String) (low : -2 ^ (type.bits - 1) ≤ n) (high : n < 2 ^ (type.bits - 1)) :
    literalValue types element .integer (String.ofList (integerChars n ++ suffix))
      type.elementType = .ok (type.narrowed n) := by
  have long : IsLongSuffix suffix := suffixed.imp_right fun wide => .inr wide.1
  have chars : integerChars n ++ suffix = (IntegerText.ofInt n suffix long).chars := by
    rw [integerChars_eq, IntegerText.chars, List.append_assoc]
    rfl
  have signed : (IntegerText.ofInt n suffix long).signed = n := by
    have magnitude : (IntegerText.ofInt n suffix long).magnitude = n.natAbs :=
      placeValue_toDigits (b := 10) (by decide) (by decide) n.natAbs
    rw [IntegerText.signed, magnitude]
    simp only [IntegerText.ofInt, decide_eq_true_eq]
    split_ifs <;> omega
  have decimal : (IntegerText.ofInt n suffix long).usesAllBits type.bits = false :=
    Bool.and_false _
  have range : (IntegerText.ofInt n suffix long).InRange type.bits := by
    rw [IntegerText.InRange, decimal, if_neg Bool.false_ne_true, signed]
    exact ⟨low, high⟩
  have meaning : (IntegerText.ofInt n suffix long).meaning type.bits = n := by
    rw [IntegerText.meaning, decimal, if_neg Bool.false_ne_true, signed]
  have mine : (IntegerText.ofInt n suffix long).suffix = [] ∨ type = .long :=
    suffixed.imp_right And.right
  rw [type.literalValue_eq, if_pos (by rfl), chars, integerValue_chars, if_pos mine, if_pos range,
    meaning]
  rfl

/-- **Integer literals mean what their digits say.**  For an element of an integer type, a text has
a value exactly if between blanks it is a literal in the range of the type, with a suffix for longs
only; the value is the number that the literal means there.  Exactly the literals outside the range
are reported to be out of it. -/
theorem integer_literals (l : Loader) (interface element text : String) (type : IntegerType)
    (r : Registry) :
    (∀ v, (∃ n r', Node.parse text = .ok n ∧
        resolveValue l interface element n type.elementType r = .ok v r') ↔
      ∃ t : IntegerText, t.chars = trim text.toList ∧ (t.suffix = [] ∨ type = .long) ∧
        t.InRange type.bits ∧ type.number? v = some (t.meaning type.bits)) ∧
    (∀ offset, (∃ n r', Node.parse text = .ok n ∧
        resolveValue l interface element n type.elementType r = .error ⟨interface,
          .outOfRange element type.elementType (String.ofList (trim text.toList)), offset⟩ r') ↔
      ∃ t : IntegerText, t.chars = trim text.toList ∧ (t.suffix = [] ∨ type = .long) ∧
        ¬t.InRange type.bits ∧ offset = byteCount (leading text.toList)) := by
  constructor
  · intro v
    rw [scalar_iff type.isScalar]
    constructor
    · rintro ⟨kind, raw, -, -, valued⟩
      obtain ⟨t, same, suffixed, eq⟩ := type.exists_of_literalValue valued (fun _ => nofun) nofun
      unfold IntegerType.resultOf at eq
      split_ifs at eq with range
      cases eq
      obtain ⟨low, high⟩ := t.meaning_bounds type.bits_pos range
      exact ⟨t, same, suffixed, range, type.number?_narrowed low high⟩
    · rintro ⟨t, same, suffixed, range, number⟩
      obtain ⟨kind, raw, literal, lexeme, valued⟩ := type.literalValue_chars t suffixed
      refine ⟨kind, raw, literal, same ▸ lexeme, ?_⟩
      rw [← same, valued, IntegerType.resultOf, if_pos range, type.eq_narrowed number]
  · intro offset
    rw [scalar_error_iff type.isScalar (fun _ same => by cases same)]
    constructor
    · rintro ⟨kind, raw, -, -, failed, place⟩
      obtain ⟨t, same, suffixed, eq⟩ := type.exists_of_literalValue failed
        (fun _ same => by cases same) (fun same => by cases same)
      unfold IntegerType.resultOf at eq
      split_ifs at eq with range
      exact ⟨t, same, suffixed, range, place⟩
    · rintro ⟨t, same, suffixed, outside, place⟩
      obtain ⟨kind, raw, literal, lexeme, failed⟩ := type.literalValue_chars t suffixed
      refine ⟨kind, raw, literal, same ▸ lexeme, ?_, place⟩
      rw [← same, failed, IntegerType.resultOf, if_neg outside]

end DocAnnotations
