import DocAnnotations.Proofs.Node.Grammar
import DocAnnotations.Proofs.Token.Lossless
import DocAnnotations.Resolve

/-!
# Texts that are one literal

A text is read as a raw literal exactly if it is a lexeme once the blanks at its ends are taken off.

**Blanks at the ends.**  `trim` takes them off, and every text is its trimmed part between blanks
(`trim_eq`).

**The ends of lexemes.**  A lexeme neither begins nor ends with a blank, so that trimming takes
nothing of it away, whatever stands inside its quotes.

**Reading.**  **`parse_literal_iff`**: so a text has one token, and a literal for its tree, exactly
if its trimmed part is a lexeme of a kind of literal.

**Resolving.**  For an element that is no array and no annotation only such texts have a value, and
it is that of the lexeme (**`scalar_iff`**); `scalar_error_iff` says the same of errors.
-/

namespace DocAnnotations

open Text

/-! ## Blanks at the ends -/

namespace Text

/-- The text without the blanks at its ends. -/
def trim (cs : List Char) : List Char := trimEnd (trimStart cs)

/-- The blanks at the front of a text. -/
def leading (cs : List Char) : List Char := cs.takeWhile isBlank

variable {gap tail w : List Char}

lemma isBlank_of_mem_leading {cs : List Char} {c : Char} (h : c ∈ leading cs) :
    isBlank c = true := List.mem_takeWhile_imp h

/-- Blanks in front of a text that does not begin with a blank are taken off, and nothing else
is. -/
lemma trimStart_append (blank : ∀ c ∈ gap, isBlank c = true)
    (inked : ∀ c ∈ w.head?, isBlank c = false) : trimStart (gap ++ w) = w := by
  rw [trimStart, List.dropWhile_append_of_pos blank]
  cases w with
  | nil => rfl
  | cons c w => rw [List.dropWhile_cons, if_neg (by simp [inked c rfl])]

/-- Blanks behind a text that does not end in a blank are taken off, and nothing else is. -/
lemma trimEnd_append (blank : ∀ c ∈ tail, isBlank c = true)
    (inked : ∀ c ∈ w.getLast?, isBlank c = false) : trimEnd (w ++ tail) = w := by
  have reversed : trimStart (tail.reverse ++ w.reverse) = w.reverse :=
    trimStart_append (fun c mem => blank c (List.mem_reverse.1 mem))
      (fun c mem => inked c (by simpa using mem))
  rw [trimStart] at reversed
  rw [trimEnd, List.reverse_append, reversed, List.reverse_reverse]

/-- What is trimmed off are blanks. -/
lemma exists_tail (cs : List Char) :
    ∃ tail, (∀ c ∈ tail, isBlank c = true) ∧ cs = leading cs ++ trim cs ++ tail := by
  refine ⟨((trimStart cs).reverse.takeWhile isBlank).reverse,
    fun c mem => List.mem_takeWhile_imp (List.mem_reverse.1 mem), ?_⟩
  rw [trim, trimEnd, List.append_assoc, ← List.reverse_append, List.takeWhile_append_dropWhile,
    List.reverse_reverse, leading, trimStart, List.takeWhile_append_dropWhile]

/-- Blanks around a word that has none at its ends are what is trimmed off. -/
lemma trim_eq (nonempty : w ≠ []) (first : ∀ c ∈ w.head?, isBlank c = false)
    (last : ∀ c ∈ w.getLast?, isBlank c = false) (front : ∀ c ∈ gap, isBlank c = true)
    (back : ∀ c ∈ tail, isBlank c = true) :
    trim (gap ++ w ++ tail) = w ∧ leading (gap ++ w ++ tail) = gap := by
  obtain ⟨c, cs, rfl⟩ := List.exists_cons_of_ne_nil nonempty
  have inked : isBlank c = false := first c rfl
  constructor
  · rw [trim, List.append_assoc, trimStart_append front fun d mem => first d (by simpa using mem),
      trimEnd_append back last]
  · rw [leading, List.append_assoc, List.takeWhile_append_of_pos front, List.cons_append,
      List.takeWhile_cons, inked]
    simp

end Text

/-! ## The ends of lexemes -/

/-- A closed literal goes on up to its quote. -/
lemma exists_of_quotedLength {quote : Char} : ∀ {cs : List Char} {n : Nat},
    quotedLength quote cs = some n → ∃ inner rest, cs = inner ++ quote :: rest ∧
      n = inner.length + 1
  | [], _, h => by cases h
  | c :: cs, n, h => by
      rcases quotedLength_cons_ok.1 h with
        ⟨-, d, ds, m, rfl, closed, rfl⟩ | ⟨-, rfl, rfl⟩ | ⟨-, -, m, closed, rfl⟩
      · obtain ⟨inner, rest, rfl, rfl⟩ := exists_of_quotedLength closed
        exact ⟨c :: d :: inner, rest, rfl, rfl⟩
      · exact ⟨[], cs, rfl, rfl⟩
      · obtain ⟨inner, rest, rfl, rfl⟩ := exists_of_quotedLength closed
        exact ⟨c :: inner, rest, rfl, rfl⟩

variable {kind : TokenKind} {literal : LiteralKind} {word : List Char}

namespace IsLexeme

lemma ne_nil (h : IsLexeme kind word) : word ≠ [] := by
  obtain ⟨c, w, rfl, -⟩ := h
  exact List.cons_ne_nil c w

/-- A lexeme does not begin with a blank. -/
lemma inked_head (h : IsLexeme kind word) : ∀ c ∈ word.head?, isBlank c = false := by
  obtain ⟨c, w, rfl, inked, -⟩ := h
  rintro _ ⟨⟩
  exact inked

/-- What is no name character at the front of a lexeme is the lexeme, or a quote that also closes
it. -/
lemma inked_last (h : IsLexeme kind word) : ∀ c ∈ word.getLast?, isBlank c = false := by
  obtain ⟨c, w, rfl, inked, closed, scan⟩ := h
  have quoted : ∀ quoted, isBlank c = false → scanQuoted c quoted w = (kind, w.length) →
      ∀ x ∈ (c :: w).getLast?, isBlank x = false := by
    intro quoted ink found x last
    obtain ⟨inner, rest, rfl, length⟩ := exists_of_quotedLength ((scanQuoted_eq closed).1 found).1
    have none : rest = [] := by
      rw [List.length_append, List.length_cons] at length
      exact List.eq_nil_of_length_eq_zero (by omega)
    subst none
    rw [← List.cons_append, List.getLast?_concat] at last
    cases last
    exact ink
  cases name : isNameChar c with
  | true =>
      intro x last
      rw [← List.append_nil w] at scan
      have all := isNameChar_of_scanToken name (by rwa [List.append_nil w] at scan ⊢)
      exact isBlank_of_isNameChar (all x (List.mem_of_getLast? last))
  | false =>
      rcases mark_or_quote name inked with ⟨mark, found⟩ | rfl | rfl
      · rw [scanToken_mark found] at scan
        have length : 0 = w.length := congrArg Prod.snd (Except.ok.inj scan)
        rw [List.eq_nil_of_length_eq_zero length.symm]
        rintro _ ⟨⟩
        exact inked
      · exact quoted .string inked (Except.ok.inj scan)
      · exact quoted .char inked (Except.ok.inj scan)

end IsLexeme

/-! ## Reading -/

variable {text : String} {gap tail : List Char}

/-- Each lexeme ends where only blanks follow. -/
lemma stops_of_blanks (blank : ∀ c ∈ tail, isBlank c = true) : Stops tail := by
  cases tail with
  | nil => exact stops_nil
  | cons c cs => simp [stops_cons, isNameChar, blank c List.mem_cons_self]

/-- What is cut off before blanks is a lexeme. -/
lemma Token.Scans.isLexeme {t : Token} (scans : t.Scans tail)
    (blank : ∀ c ∈ tail, isBlank c = true) (raw : t.kind.literalKind? = some literal) :
    IsLexeme t.kind t.text.toList := by
  obtain ⟨c, w, same, inked, scan⟩ := scans
  have closed : t.kind ≠ .unterminated := fun same => by rw [same] at raw; cases raw
  exact ⟨c, w, same, inked, closed, (scanToken_append (stops_of_blanks blank) closed).1 scan⟩

/-- A lexeme between blanks is the only token. -/
lemma tokenize_lexeme (h : IsLexeme kind word) (whole : text.toList = gap ++ word ++ tail)
    (front : ∀ c ∈ gap, isBlank c = true) (back : ∀ c ∈ tail, isBlank c = true) :
    ∃ stop, tokenize text = .ok [⟨kind, String.ofList word,
      ⟨byteCount gap, byteCount gap + byteCount word⟩⟩, Token.endOfInput stop] := by
  have rest := tokensFrom_iff_tiled.2 (@Tiled.closing (byteCount gap + byteCount word) tail back)
  have tokens := lexes_word h (byteCount gap) tail _ (stops_of_blanks back) rest
  rw [utf8ByteSize_eq, String.toList_ofList] at tokens
  exact ⟨_, by rw [tokenize, whole, List.append_assoc, tokensFrom_blanks front, Nat.zero_add,
    tokens, List.singleton_append]⟩

open Grammar in
/-- **Exactly the lexemes between blanks are read as raw literals.** -/
theorem parse_literal_iff {name : String} {span : Span} :
    Node.parse text = .ok (.literal literal name span) ↔ ∃ kind : TokenKind,
      kind.literalKind? = some literal ∧ IsLexeme kind name.toList ∧
      trim text.toList = name.toList ∧ span = ⟨byteCount (leading text.toList),
        byteCount (leading text.toList) + byteCount name.toList⟩ := by
  rw [node_parse_iff]
  constructor
  · rintro ⟨tokens, depth, cut, derived, -⟩
    rw [tokenize, tokensFrom_iff_tiled] at cut
    generalize text.toList = cs at cut ⊢
    obtain ⟨inner, final⟩ := derived
    cases inner with
    | @literal t _ raw =>
        cases cut with
        | @token _ gap rest _ _ front scans start stop others =>
            cases others with
            | closing back =>
                have lexeme := scans.isLexeme back raw
                obtain ⟨trimmed, blanks⟩ :=
                  trim_eq lexeme.ne_nil lexeme.inked_head lexeme.inked_last front back
                refine ⟨t.kind, raw, lexeme, trimmed, ?_⟩
                rw [blanks, ← Nat.zero_add (byteCount gap), ← start, ← stop]
            | token _ _ _ _ nothing => cases nothing
  · rintro ⟨kind, raw, lexeme, trimmed, rfl⟩
    obtain ⟨tail, back, whole⟩ := exists_tail text.toList
    rw [trimmed] at whole
    obtain ⟨stop, tokens⟩ := tokenize_lexeme lexeme whole (fun c => isBlank_of_mem_leading) back
    rw [String.ofList_toList] at tokens
    exact ⟨_, 0, tokens, @IsLoneValue.value [_] _ _ _ (.literal raw) rfl, Nat.zero_le _⟩

/-! ## Resolving -/

/-- The types whose values are not made of other values. -/
def ElementType.isScalar : ElementType → Bool
  | .interface _ | .array _ => false
  | _ => true

section

variable {l : Loader} {interface element name : String} {expected : ElementType} {span : Span}
  {r r' : Registry} {v : Value} {fault : ResolveFault} {n : Node}

/-- A literal leaves the registry as it is, and its faults are reported where it starts. -/
lemma resolveValue_literal :
    resolveValue l interface element (.literal literal name span) expected r =
      match literalValue l.types element literal name expected with
      | .ok v => .ok v r
      | .error fault => .error ⟨interface, fault, span.start⟩ r := by
  rw [resolveValue]
  cases literalValue l.types element literal name expected <;> rfl

/-- A lone literal resolves to the value that it is read as, and nothing is loaded. -/
lemma resolveValue_literal_ok :
    resolveValue l interface element (.literal literal name span) expected r = .ok v r' ↔
      literalValue l.types element literal name expected = .ok v ∧ r' = r := by
  rw [resolveValue_literal]
  cases literalValue l.types element literal name expected with
  | ok w => simp [eq_comm]
  | error fault => simp

/-- A lone literal fails as its reading does, at the place where it stands. -/
lemma resolveValue_literal_error {e : ResolveError} :
    resolveValue l interface element (.literal literal name span) expected r = .error e r' ↔
      ∃ fault, literalValue l.types element literal name expected = .error fault ∧
        e = ⟨interface, fault, span.start⟩ ∧ r' = r := by
  rw [resolveValue_literal]
  cases literalValue l.types element literal name expected with
  | ok w => simp
  | error fault => simp [eq_comm]

/-- Nothing but literals suits an element of a scalar type. -/
lemma literal_or_mismatch (scalar : expected.isScalar = true) (n : Node) :
    (∃ literal name span, n = .literal literal name span) ∨ ∃ found,
      resolveValue l interface element n expected
        = failAt interface n.span.start (.typeMismatch element expected found) := by
  cases n with
  | literal literal name span => exact .inl ⟨literal, name, span, rfl⟩
  | array nodes span =>
      refine .inr ⟨"array type", ?_⟩
      rw [resolveValue]
      · rfl
      · rintro inner rfl
        cases scalar
  | nested a =>
      obtain ⟨name, pairs, span⟩ := a
      refine .inr ⟨"annotation", ?_⟩
      rw [resolveValue]
      · rfl
      · rintro declared rfl
        cases scalar

/-- A text comes to what its lexeme comes to, unless it is of no fitting kind. -/
lemma exists_parsed_iff (scalar : expected.isScalar = true)
    {outcome : EStateM.Result ResolveError Registry Value}
    (other : ∀ offset found,
      failAt interface offset (.typeMismatch element expected found) r ≠ outcome) :
    (∃ n, Node.parse text = .ok n ∧ resolveValue l interface element n expected r = outcome) ↔
      ∃ (kind : TokenKind) (literal : LiteralKind), kind.literalKind? = some literal ∧
        IsLexeme kind (trim text.toList) ∧
        resolveValue l interface element (.literal literal (String.ofList (trim text.toList))
          ⟨byteCount (leading text.toList),
            byteCount (leading text.toList) + byteCount (trim text.toList)⟩) expected r
          = outcome := by
  constructor
  · rintro ⟨n, parsed, ran⟩
    rcases literal_or_mismatch scalar n with ⟨literal, name, span, rfl⟩ | ⟨found, mismatch⟩
    · obtain ⟨kind, raw, lexeme, trimmed, rfl⟩ := parse_literal_iff.1 parsed
      rw [trimmed, String.ofList_toList]
      exact ⟨kind, literal, raw, lexeme, ran⟩
    · exact absurd (mismatch ▸ ran) (other n.span.start found)
  · rintro ⟨kind, literal, raw, lexeme, ran⟩
    refine ⟨_, parse_literal_iff.2 ⟨kind, raw, ?_, String.toList_ofList.symm, ?_⟩, ran⟩
    · rwa [String.toList_ofList]
    · rw [String.toList_ofList]

/-- **A text has a value for an element of a scalar type exactly if it is a lexeme between blanks
and the lexeme has.** -/
theorem scalar_iff (scalar : expected.isScalar = true) :
    (∃ n r', Node.parse text = .ok n ∧ resolveValue l interface element n expected r = .ok v r') ↔
      ∃ (kind : TokenKind) (literal : LiteralKind), kind.literalKind? = some literal ∧
        IsLexeme kind (trim text.toList) ∧
        literalValue l.types element literal (String.ofList (trim text.toList)) expected
          = .ok v := by
  constructor
  · rintro ⟨n, r', read⟩
    obtain ⟨kind, literal, raw, lexeme, ran⟩ :=
      (exists_parsed_iff scalar fun _ _ same => by cases same).1 ⟨n, read⟩
    exact ⟨kind, literal, raw, lexeme, (resolveValue_literal_ok.1 ran).1⟩
  · rintro ⟨kind, literal, raw, lexeme, valued⟩
    obtain ⟨n, read⟩ := (exists_parsed_iff scalar fun _ _ same => by cases same).2
      ⟨kind, literal, raw, lexeme, resolveValue_literal_ok.2 ⟨valued, rfl⟩⟩
    exact ⟨n, r, read⟩

/-- Any other fault than one of kinds is that of a lexeme, and is reported where it starts. -/
theorem scalar_error_iff (scalar : expected.isScalar = true)
    (other : ∀ found, fault ≠ .typeMismatch element expected found) {offset : Nat} :
    (∃ n r', Node.parse text = .ok n ∧ resolveValue l interface element n expected r
      = .error ⟨interface, fault, offset⟩ r') ↔
      ∃ (kind : TokenKind) (literal : LiteralKind), kind.literalKind? = some literal ∧
        IsLexeme kind (trim text.toList) ∧
        literalValue l.types element literal (String.ofList (trim text.toList)) expected
          = .error fault ∧ offset = byteCount (leading text.toList) := by
  have apart : ∀ r' place found, failAt interface place (.typeMismatch element expected found) r
      ≠ (.error ⟨interface, fault, offset⟩ r' : EStateM.Result ResolveError Registry Value) := by
    intro r' place found same
    cases same
    exact other found rfl
  constructor
  · rintro ⟨n, r', read⟩
    obtain ⟨kind, literal, raw, lexeme, ran⟩ := (exists_parsed_iff scalar (apart r')).1 ⟨n, read⟩
    obtain ⟨fault, failed, same, -⟩ := resolveValue_literal_error.1 ran
    cases same
    exact ⟨kind, literal, raw, lexeme, failed, rfl⟩
  · rintro ⟨kind, literal, raw, lexeme, failed, same⟩
    obtain ⟨n, read⟩ := (exists_parsed_iff scalar (apart r)).2
      ⟨kind, literal, raw, lexeme, resolveValue_literal_error.2 ⟨fault, failed, same ▸ rfl, rfl⟩⟩
    exact ⟨n, r, read⟩

end

end DocAnnotations
