import DocAnnotations.Proofs.Literal.Lone
import DocAnnotations.Proofs.Token.Quoted
import DocAnnotations.TypeIndex

/-!
# What quoted literals mean

A text stands between double quotes, a character between single ones.  `QuotedType` is one of the
two, with its quote and what it encodes.

**Tokens.**  Text between quotes is one token exactly if the lexer finds the closing quote behind
all of it (`isToken_iff`); it does so for everything that spells units.

**Values.**  What is between the quotes spells units of sixteen bits, characters for themselves and
escapes for one unit each (`SpellsUnits`).  A text is what its units encode, if every surrogate has
its partner; a character is one unit that is no surrogate.

**`quoted_literals`**: a token between quotes has a value exactly if what it spells encodes one, and
everything that spells units is one token between its quotes.
-/

namespace DocAnnotations

open Text

/-! ## Types of quoted literals -/

/-- The types whose literals are quoted. -/
inductive QuotedType where
  | string
  | char
deriving DecidableEq

namespace QuotedType

/-- The quote around literals of the type. -/
def quote : QuotedType → Char
  | string => '"'
  | char => '\''

/-- The kind of token that literals of the type are. -/
def tokenKind : QuotedType → TokenKind
  | string => .string
  | char => .char

/-- The type as elements are declared with it. -/
def elementType : QuotedType → ElementType
  | string => .string
  | char => .char

/-- The kind of literal that they are read as. -/
def literalKind : QuotedType → LiteralKind
  | string => .string
  | char => .char

/-- A text between quotes. -/
def quoted (type : QuotedType) (body : String) : String :=
  String.ofList (type.quote :: body.toList ++ [type.quote])

/-- The units that a value of the type is encoded with. -/
inductive Encodes : QuotedType → List UInt16 → Value → Prop
  | string (s : String) : Encodes string (s.toList.flatMap unitsOfChar) (.string s)
  | char {unit : UInt16} (alone : unit < 0xd800 ∨ 0xdfff < unit) :
      Encodes char [unit] (.char (Char.ofNat unit.toNat))

/-- The text between quotes is one token of the kind, with the end of input behind it. -/
def IsToken (type : QuotedType) (body : String) : Prop :=
  ∃ t closing, tokenize (type.quoted body) = .ok [t, closing] ∧ t.kind = type.tokenKind ∧
    closing.kind = .endOfInput

variable {type : QuotedType} {body : String} {us : List UInt16} {v : Value}

lemma toList_quoted : (type.quoted body).toList = type.quote :: body.toList ++ [type.quote] :=
  String.toList_ofList

lemma quote_eq : type.quote = '"' ∨ type.quote = '\'' := by
  cases type
  · exact .inl rfl
  · exact .inr rfl

/-- From a quote on, the token goes to the closing quote of the same kind. -/
lemma scanToken_quote (offset : Nat) (cs : List Char) :
    scanToken offset type.quote cs = .ok (scanQuoted type.quote type.tokenKind cs) := by
  cases type <;> rfl

lemma literalKind?_tokenKind : type.tokenKind.literalKind? = some type.literalKind := by
  cases type <;> rfl

lemma isScalar : type.elementType.isScalar = true := by cases type <;> rfl

lemma inked : isBlank type.quote = false := by cases type <;> decide

/-! ## Tokens -/

/-- A quoted text is a lexeme if its closing quote is the last character. -/
lemma isLexeme_iff : IsLexeme type.tokenKind (type.quoted body).toList ↔
    quotedLength type.quote (body.toList ++ [type.quote]) = some (body.toList.length + 1) := by
  have closed : type.tokenKind ≠ .unterminated := by cases type <;> decide
  rw [toList_quoted, List.cons_append]
  constructor
  · rintro ⟨c, w, same, -, -, scan⟩
    cases same
    rw [scanToken_quote, Except.ok.injEq, scanQuoted_eq closed] at scan
    simpa using scan.1
  · intro length
    refine ⟨_, _, rfl, inked, closed, ?_⟩
    rw [scanToken_quote, Except.ok.injEq, scanQuoted_eq closed]
    simpa using length

/-- No blanks are trimmed off quoted texts. -/
lemma trim_quoted : trim (type.quoted body).toList = (type.quoted body).toList := by
  rw [toList_quoted]
  have ends := @trim_eq [] [] (type.quote :: body.toList ++ [type.quote]) (by simp)
    (by simpa using inked) (by rw [List.getLast?_concat]; simpa using inked) (by simp) (by simp)
  simpa using ends.1

/-- A body makes one token between quotes if and only if the quoted text is a lexeme. -/
lemma isToken_iff : type.IsToken body ↔ IsLexeme type.tokenKind (type.quoted body).toList := by
  constructor
  · rintro ⟨t, closing, cut, kind, final⟩
    have raw : t.kind.literalKind? = some type.literalKind := kind ▸ literalKind?_tokenKind
    have parsed : Node.parse (type.quoted body) = .ok (.literal type.literalKind t.text t.span) :=
      node_parse_iff.2
        ⟨_, 0, cut, @Grammar.IsLoneValue.value [t] _ _ _ (.literal raw) final, Nat.zero_le _⟩
    obtain ⟨other, raw', lexeme, trimmed, -⟩ := parse_literal_iff.1 parsed
    have same : other = type.tokenKind := by
      cases type <;> cases other <;> first | rfl | cases raw'
    rwa [same, ← trimmed, trim_quoted] at lexeme
  · intro lexeme
    have whole : (type.quoted body).toList = [] ++ (type.quoted body).toList ++ [] := by simp
    obtain ⟨stop, cut⟩ := tokenize_lexeme lexeme whole (by simp) (by simp)
    exact ⟨_, _, cut, rfl, rfl⟩

/-- What spells units is a token, whatever follows it. -/
lemma scanToken_of_spells (spells : SpellsUnits type.quote body.toList us) (offset : Nat)
    (rest : List Char) : scanToken offset type.quote (body.toList ++ type.quote :: rest)
      = .ok (type.tokenKind, body.toList.length + 1) := by
  rw [scanToken_quote, scanQuoted, spells.quotedLength quote_eq]

/-- A body that spells some units has no open quote, so that it makes one token. -/
lemma isToken_of_spells (spells : SpellsUnits type.quote body.toList us) : type.IsToken body :=
  isToken_iff.2 (isLexeme_iff.2 (spells.quotedLength quote_eq []))

/-! ## Values -/

/-- The units of a quoted text are those of its body, with the escapes undone. -/
lemma quotedUnits?_quoted :
    quotedUnits? (type.quoted body).toList = unescape 0 body.toList := by
  have inner : unquote? (type.quoted body).toList = some body.toList := by
    rw [toList_quoted, List.cons_append, unquote?]
    simp [quote_eq]
  rw [quotedUnits?, inner]

/-- A quoted text is read as a string if and only if its body spells units that encode the
string. -/
lemma stringLiteral?_quoted {s : String} : stringLiteral? (string.quoted body).toList = some s ↔
    ∃ us, unescape 0 body.toList = some us ∧ Encodes string us (.string s) := by
  rw [stringLiteral?, quotedUnits?_quoted]
  constructor
  · intro read
    split at read
    · next us spelled =>
      obtain ⟨cs, encoded, rfl⟩ := Option.map_eq_some_iff.1 read
      refine ⟨us, spelled, ?_⟩
      rw [← charsOfUnits_iff.1 encoded]
      have encodes := Encodes.string (String.ofList cs)
      rwa [String.toList_ofList] at encodes
    · cases read
  · rintro ⟨us, spelled, encodes⟩
    cases encodes
    simp only [spelled, charsOfUnits_flatMap, Option.map_some, String.ofList_toList]

/-- A quoted text is read as a character if and only if its body spells the one unit of the
character. -/
lemma charLiteral?_quoted {c : Char} : charLiteral? (char.quoted body).toList = some c ↔
    ∃ us, unescape 0 body.toList = some us ∧ Encodes char us (.char c) := by
  rw [charLiteral?, quotedUnits?_quoted]
  constructor
  · intro read
    split at read
    · next unit spelled =>
      split_ifs at read with valid
      cases read
      exact ⟨_, spelled, .char (isValidChar_iff.1 valid)⟩
    · cases read
  · rintro ⟨us, spelled, encodes⟩
    cases encodes with
    | char alone =>
        simp only [spelled]
        exact if_pos (isValidChar_iff.2 alone)

/-- The value that a quoted text stands for. -/
def read? : QuotedType → List Char → Option Value
  | string, cs => (stringLiteral? cs).map .string
  | char, cs => (charLiteral? cs).map .char

/-- A quoted text is read as a value if and only if its body spells units that encode the value. -/
lemma read?_quoted : type.read? (type.quoted body).toList = some v ↔
    ∃ us, unescape 0 body.toList = some us ∧ type.Encodes us v := by
  cases type with
  | string =>
      rw [read?, Option.map_eq_some_iff]
      constructor
      · rintro ⟨s, read, rfl⟩
        exact stringLiteral?_quoted.1 read
      · rintro ⟨us, spelled, encodes⟩
        cases encodes with
        | string s => exact ⟨s, stringLiteral?_quoted.2 ⟨_, spelled, .string s⟩, rfl⟩
  | char =>
      rw [read?, Option.map_eq_some_iff]
      constructor
      · rintro ⟨c, read, rfl⟩
        exact charLiteral?_quoted.1 read
      · rintro ⟨us, spelled, encodes⟩
        cases encodes with
        | char alone => exact ⟨_, charLiteral?_quoted.2 ⟨_, spelled, .char alone⟩, rfl⟩

/-- Literals of the kind of the type are read as quoted texts, others not at all. -/
lemma literalValue_ok_iff {types : TypeLookup} {element text : String} {raw : LiteralKind} :
    literalValue types element raw text type.elementType = .ok v ↔
      raw = type.literalKind ∧ type.read? text.toList = some v := by
  cases type with
  | string =>
      simp only [literalValue, elementType, literalKind, read?]
      split_ifs with kind
      · cases stringLiteral? text.toList <;> simp [kind]
      · simp [kind]
  | char =>
      simp only [literalValue, elementType, literalKind, read?]
      split_ifs with kind
      · cases charLiteral? text.toList <;> simp [kind]
      · simp [kind]

end QuotedType

/-- **Quoted literals mean what they spell.**  Where a text between quotes is one token, it has a
value for an element of the type exactly if the text spells units that encode the value.  Everything
that spells units is one token between quotes, and ends with its closing quote whatever follows. -/
theorem quoted_literals (l : Loader) (interface element body : String) (type : QuotedType)
    (r : Registry) :
    (type.IsToken body → ∀ v, (∃ n r', Node.parse (type.quoted body) = .ok n ∧
        resolveValue l interface element n type.elementType r = .ok v r') ↔
      ∃ us, SpellsUnits type.quote body.toList us ∧ type.Encodes us v) ∧
    (∀ us, SpellsUnits type.quote body.toList us → type.IsToken body ∧ ∀ offset rest,
      scanToken offset type.quote (body.toList ++ type.quote :: rest)
        = .ok (type.tokenKind, body.toList.length + 1)) := by
  constructor
  · intro token v
    have lexeme := QuotedType.isToken_iff.1 token
    have closed := QuotedType.isLexeme_iff.1 lexeme
    rw [scalar_iff QuotedType.isScalar, QuotedType.trim_quoted, String.ofList_toList]
    constructor
    · rintro ⟨kind, raw, -, -, valued⟩
      obtain ⟨us, read, encodes⟩ :=
        QuotedType.read?_quoted.1 (QuotedType.literalValue_ok_iff.1 valued).2
      exact ⟨us, (spellsUnits_iff QuotedType.quote_eq closed).1 read, encodes⟩
    · rintro ⟨us, spells, encodes⟩
      exact ⟨type.tokenKind, type.literalKind, QuotedType.literalKind?_tokenKind, lexeme,
        QuotedType.literalValue_ok_iff.2
          ⟨rfl, QuotedType.read?_quoted.2 ⟨us, spells.unescape, encodes⟩⟩⟩
  · intro us spells
    exact ⟨QuotedType.isToken_of_spells spells, QuotedType.scanToken_of_spells spells⟩

/-- Escaped surrogates are joined, and an octal escape takes three digits. -/
theorem quoted_literals_surrogates :
    let body := "\\ud83d\\uuDE00\\1018"
    QuotedType.string.IsToken body ∧
      ∃ n r', Node.parse (QuotedType.string.quoted body) = .ok n ∧
        resolveValue (TypeIndex.empty.loader ⟨0⟩) "p.A" "v" n .string .empty
          = .ok (.string "😀A8") r' := by
  intro body
  obtain ⟨valued, spelled⟩ :=
    quoted_literals (TypeIndex.empty.loader ⟨0⟩) "p.A" "v" body .string .empty
  have closed : quotedLength '"' (body.toList ++ ['"']) = some (body.toList.length + 1) := by
    decide +kernel
  have read : unescape 0 body.toList = some ("😀A8".toList.flatMap unitsOfChar) := by
    decide +kernel
  have spells := (spellsUnits_iff (.inl rfl) closed).1 read
  have token := (spelled _ spells).1
  exact ⟨token, (valued token _).2 ⟨_, spells, .string "😀A8"⟩⟩

end DocAnnotations
