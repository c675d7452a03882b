import DocAnnotations.Proofs.Token.Tiling
import Mathlib.Data.List.TakeWhile

/-!
# Cutting loses nothing

**The characters of numbers.**  A number is a front of the text that is all name characters
(`NumberText.isNameChar_of_mem_chars`), whatever parts it is cut into.

**Single tokens.**  What single tokens are made of follows from how they are scanned
(`Token.Scans`).

**Tokens in a row.**  Each part of the statement is an induction over the tiling: what is between
two tokens, what their spans are, and what follows an open quote.

**`tokenize_lossless`**: the tokens of a text are slices of it on boundaries of characters, in order
and apart from each other; what is between them is blank; they end with the end of input; and only
quoted and unclosed literals hold characters that would end a name.
-/

namespace DocAnnotations

open Text

variable {offset more : Nat} {c : Char} {cs rest w : List Char} {kind : TokenKind} {t : Token}
  {ts tokens : List Token} {text : String}

/-! ## The characters of numbers -/

namespace NumberText

lemma isNameChar_of_mem_sign (h : c ∈ (splitSign cs).1) : isNameChar c = true := by
  unfold splitSign at h
  split at h
  · rw [List.mem_singleton.1 h]
    decide
  · cases h

lemma isNameChar_of_mem_mark (h : c ∈ (splitMark cs).1) : isNameChar c = true := by
  unfold splitMark at h
  split at h
  · next x _ =>
    split_ifs at h with hex
    · rw [Bool.or_eq_true, beq_iff_eq, beq_iff_eq] at hex
      simp only [List.mem_cons, List.not_mem_nil, or_false] at h
      rcases h with rfl | rfl
      · decide
      · rcases hex with rfl | rfl <;> decide
    · cases h
  · cases h

lemma digit_or_dot_of_mem : ∀ {cs : List Char}, c ∈ (splitDigits cs).1 → c.isDigit = true ∨ c = '.'
  | [], h => by cases h
  | d :: cs, h => by
      rw [splitDigits] at h
      split_ifs at h with goesOn
      · rcases List.mem_cons.1 h with rfl | h
        · rw [Bool.or_eq_true, Bool.and_eq_true, beq_iff_eq] at goesOn
          exact goesOn.imp_right And.left
        · exact digit_or_dot_of_mem h
      · cases h

lemma isNameChar_of_mem_digits (h : c ∈ (splitDigits cs).1) : isNameChar c = true := by
  rcases digit_or_dot_of_mem h with digit | rfl
  · exact isNameChar_of_isDigit digit
  · decide

lemma isNameChar_of_mem_exponent (h : c ∈ (splitExponent cs).1) : isNameChar c = true := by
  unfold splitExponent at h
  split at h
  · next e s cs =>
    split_ifs at h with starts
    · simp only [Bool.and_eq_true, Bool.or_eq_true, beq_iff_eq] at starts
      obtain ⟨letter, sign⟩ := starts
      rcases List.mem_cons.1 h with rfl | h
      · rcases letter with rfl | rfl <;> decide
      · rcases List.mem_cons.1 h with rfl | h
        · rcases sign with (digit | rfl) | rfl
          · exact isNameChar_of_isDigit digit
          · decide
          · decide
        · exact isNameChar_of_isDigit (List.mem_takeWhile_imp h)
    · cases h
  · cases h

lemma of_mem_splitOne {p : Char → Bool} (h : c ∈ (splitOne p cs).1) : p c = true := by
  unfold splitOne at h
  split at h
  · split_ifs at h with fits
    · rwa [List.mem_singleton.1 h]
    · cases h
  · cases h

lemma isNameChar_of_isSuffix (h : isFloatSuffix c = true ∨ isLongSuffix c = true) :
    isNameChar c = true :=
  h.elim (isNameChar_of_class fun stop => (suffixes_of_stop stop).1)
    (isNameChar_of_class fun stop => (suffixes_of_stop stop).2)

lemma isNameChar_of_isHexDigit (h : isHexDigit c = true) : isNameChar c = true :=
  isNameChar_of_class isHexDigit_of_stop h

lemma isNameChar_of_mem_trailer
    (h : c ∈ cs.takeWhile fun c => isNameChar c && c != '.') : isNameChar c = true := by
  have both : (isNameChar c && c != '.') = true :=
    List.mem_takeWhile_imp (p := fun c => isNameChar c && c != '.') h
  exact (Bool.and_eq_true_iff.1 both).1

/-- **A number is all name characters.** -/
theorem isNameChar_of_mem_chars (h : c ∈ (split cs).chars) : isNameChar c = true := by
  unfold split at h
  dsimp only at h
  split_ifs at h with bare
  · simp only [chars, List.mem_append] at h
    rcases h with ((((h | h) | h) | h) | h) | h
    · exact isNameChar_of_mem_sign h
    · exact isNameChar_of_mem_mark h
    · exact isNameChar_of_mem_digits h
    · exact isNameChar_of_mem_exponent h
    · have suffix := of_mem_splitOne h
      rw [Bool.or_eq_true, Bool.and_eq_true] at suffix
      exact isNameChar_of_isSuffix (suffix.imp_right And.right)
    · exact isNameChar_of_mem_trailer h
  · simp only [chars, List.mem_append, List.not_mem_nil, or_false] at h
    rcases h with (((h | h) | h) | h) | h
    · exact isNameChar_of_mem_sign h
    · exact isNameChar_of_mem_mark h
    · exact isNameChar_of_isHexDigit (List.mem_takeWhile_imp h)
    · exact isNameChar_of_isSuffix (.inr (of_mem_splitOne h))
    · exact isNameChar_of_mem_trailer h

/-- A trailer goes on as far as it can. -/
lemma exists_rest_of_trailer {front more : List Char} (join : front ++ more = cs) :
    ∃ rest, cs = (front ++ more.takeWhile fun c => isNameChar c && c != '.') ++ rest ∧
      ∀ c ∈ rest.head?, (isNameChar c && c != '.') = false := by
  refine ⟨more.dropWhile fun c => isNameChar c && c != '.', ?_, fun c first => ?_⟩
  · rw [List.append_assoc, List.takeWhile_append_dropWhile, join]
  · have stop := List.head?_dropWhile_not (fun c => isNameChar c && c != '.') more
    rw [Option.mem_def.1 first] at stop
    simpa using stop

/-- **A number is the front of its text**, and ends where names stop or before a dot. -/
theorem exists_rest (cs : List Char) : ∃ rest, cs = (split cs).chars ++ rest ∧
    ∀ c ∈ rest.head?, (isNameChar c && c != '.') = false := by
  unfold split
  dsimp only
  split_ifs with bare
  · refine exists_rest_of_trailer ?_
    simp only [List.append_assoc, splitOne_join, splitExponent_join, splitDigits_join,
      splitMark_join, splitSign_join]
  · refine exists_rest_of_trailer ?_
    simp only [List.append_assoc, List.nil_append, splitOne_join,
      List.takeWhile_append_dropWhile, splitMark_join, splitSign_join]

end NumberText

/-! ## Single tokens -/

/-- The punctuation marks that are tokens by themselves. -/
def marks : List (Char × TokenKind) :=
  [('(', .leftParen), (')', .rightParen), ('{', .leftBrace), ('}', .rightBrace), (',', .comma),
    (':', .colon), ('!', .bang), ('=', .equals), ('@', .atSign)]

/-- A mark is scanned as its own kind, and takes no further character. -/
lemma scanToken_mark (h : (c, kind) ∈ marks) (offset : Nat) (cs : List Char) :
    scanToken offset c cs = .ok (kind, 0) := by
  simp only [marks, List.mem_cons, Prod.mk.injEq, List.not_mem_nil, or_false] at h
  rcases h with ⟨rfl, rfl⟩ | ⟨rfl, rfl⟩ | ⟨rfl, rfl⟩ | ⟨rfl, rfl⟩ | ⟨rfl, rfl⟩ | ⟨rfl, rfl⟩ |
    ⟨rfl, rfl⟩ | ⟨rfl, rfl⟩ | ⟨rfl, rfl⟩ <;> rfl

/-- A character that ends a name is a blank, a mark or a quote. -/
lemma mark_or_quote (stop : isNameChar c = false) (inked : isBlank c = false) :
    (∃ kind, (c, kind) ∈ marks) ∨ c = '"' ∨ c = '\'' := by
  have mark : c ∈ punctuation := by simpa [isNameChar, inked] using stop
  simp only [punctuation, List.mem_cons, List.not_mem_nil, or_false] at mark
  rcases mark with rfl | rfl | rfl | rfl | rfl | rfl | rfl | rfl | rfl | rfl | rfl <;>
    simp [marks]

/-- A token that begins with a name character has no others. -/
lemma isNameChar_of_scanToken (first : isNameChar c = true)
    (scan : scanToken offset c (w ++ rest) = .ok (kind, w.length)) :
    ∀ x ∈ c :: w, isNameChar x = true := by
  rcases scanToken_shape c with ⟨_, -, -, stop, -⟩ | ⟨_, -, stop, -⟩ | shape
  · rw [first] at stop
    cases stop
  · rw [first] at stop
    cases stop
  · rw [shape] at scan
    split_ifs at scan
    · -- the number is a front of the text of the same length
      obtain ⟨-, length⟩ := scanNumber_ok scan
      obtain ⟨others, whole, -⟩ := NumberText.exists_rest (c :: (w ++ rest))
      intro x mem
      cases number : (NumberText.split (c :: (w ++ rest))).chars with
      | nil =>
          rw [number, List.length_nil, Nat.zero_sub] at length
          rw [List.eq_nil_of_length_eq_zero length, List.mem_singleton] at mem
          exact mem ▸ first
      | cons d ds =>
          have chars : ∀ x ∈ d :: ds, isNameChar x = true := fun x hx =>
            NumberText.isNameChar_of_mem_chars
              (show x ∈ (NumberText.split (c :: (w ++ rest))).chars by rwa [number])
          rw [number, List.cons_append, List.cons.injEq] at whole
          rw [number, List.length_cons, Nat.add_sub_cancel] at length
          obtain ⟨rfl, same⟩ := whole
          rw [← (List.append_inj same length).1] at chars
          exact chars x mem
    · have length : 0 = w.length := congrArg Prod.snd (Except.ok.inj scan)
      rw [List.eq_nil_of_length_eq_zero length.symm]
      simpa using first
    · have length : ((w ++ rest).takeWhile isNameChar).length = w.length :=
        congrArg Prod.snd (Except.ok.inj scan)
      have front : (w ++ rest).takeWhile isNameChar = w := by
        have := List.prefix_iff_eq_take.1 (List.takeWhile_prefix (l := w ++ rest) isNameChar)
        rwa [length, List.take_left] at this
      refine List.forall_mem_cons.2 ⟨first, fun x mem => ?_⟩
      rw [← front] at mem
      exact List.mem_takeWhile_imp mem

namespace Token.Scans

lemma ne_empty (h : t.Scans rest) : t.text ≠ "" := by
  obtain ⟨c, w, same, -⟩ := h
  intro empty
  rw [empty] at same
  cases same

lemma kind_ne (h : t.Scans rest) : t.kind ≠ .endOfInput := by
  obtain ⟨c, w, -, -, scan⟩ := h
  rcases kind_of_scanToken scan with ⟨-, inner, -⟩ | kind | kind | word
  · exact inner
  · simp [kind]
  · simp [kind]
  · intro kind
    rw [kind] at word
    cases word

/-- A token that is not quoted is a mark or all name characters. -/
lemma plain (h : t.Scans rest) (string : t.kind ≠ .string) (char : t.kind ≠ .char)
    (closed : t.kind ≠ .unterminated) :
    (∀ c ∈ t.text.toList, isNameChar c = true) ∨
      ∃ c, (c, t.kind) ∈ marks ∧ t.text.toList = [c] := by
  obtain ⟨c, w, same, inked, scan⟩ := h
  cases first : isNameChar c with
  | true => exact .inl (by rw [same]; exact isNameChar_of_scanToken first scan)
  | false =>
      rcases mark_or_quote first inked with ⟨kind, mark⟩ | rfl | rfl
      · rw [scanToken_mark mark] at scan
        simp only [Except.ok.injEq, Prod.mk.injEq] at scan
        obtain ⟨rfl, length⟩ := scan
        rw [List.eq_nil_of_length_eq_zero length.symm] at same
        exact .inr ⟨c, mark, same⟩
      · have kinds := kind_of_scanQuoted '"' .string (w ++ rest)
        rw [Except.ok.inj scan] at kinds
        exact absurd kinds (not_or.2 ⟨string, closed⟩)
      · have kinds := kind_of_scanQuoted '\'' .char (w ++ rest)
        rw [Except.ok.inj scan] at kinds
        exact absurd kinds (not_or.2 ⟨char, closed⟩)

/-- Nothing follows an unclosed literal. -/
lemma eq_nil_of_unterminated (h : t.Scans rest) (unclosed : t.kind = .unterminated) :
    rest = [] := by
  obtain ⟨c, w, -, -, scan⟩ := h
  rw [unclosed] at scan
  have length := eq_length_of_unterminated scan
  rw [List.length_append] at length
  exact List.eq_nil_of_length_eq_zero (by omega)

end Token.Scans

/-! ## Tokens in a row -/

/-- Between two places of a text there are blanks or nothing. -/
def BlankBetween (text : String) (start stop : Nat) : Prop :=
  ∃ gap, Span.slice? ⟨start, stop⟩ text = some gap ∧ ∀ c ∈ gap.toList, isBlank c = true

namespace Tiled

variable {before : List Char}

/-- The front of a tiled text is blank up to its first token. -/
lemma exists_gap (h : Tiled offset cs (t :: ts)) : ∃ gap rest, cs = gap ++ rest ∧
    (∀ c ∈ gap, isBlank c = true) ∧ t.span.start = offset + byteCount gap := by
  cases h with
  | closing blank => exact ⟨cs, [], (List.append_nil cs).symm, blank, rfl⟩
  | token blank scans start stop others => exact ⟨_, _, List.append_assoc .., blank, start⟩

/-- Between the offset and the first token there are only blanks. -/
lemma blankBetween (h : Tiled offset cs (t :: ts)) (whole : text.toList = before ++ cs)
    (start : byteCount before = offset) : BlankBetween text offset t.span.start := by
  obtain ⟨gap, rest, rfl, blank, first⟩ := h.exists_gap
  refine ⟨String.ofList gap, slice?_iff.2 ⟨before, rest, ?_, start, ?_⟩, ?_⟩
  · rw [String.toList_ofList, whole, List.append_assoc]
  · rw [String.toList_ofList, byteCount_append, start, first]
  · rwa [String.toList_ofList]

/-- A token that tiles a text and what is in front of the text behind it. -/
lemma next {gap : List Char} (whole : text.toList = before ++ (gap ++ t.text.toList ++ rest))
    (start : byteCount before = offset) (first : t.span.start = offset + byteCount gap)
    (stop : t.span.stop = t.span.start + byteCount t.text.toList) :
    text.toList = (before ++ gap ++ t.text.toList) ++ rest ∧
      byteCount (before ++ gap ++ t.text.toList) = t.span.stop := by
  refine ⟨by rw [whole]; simp only [List.append_assoc], ?_⟩
  rw [byteCount_append, byteCount_append, start, stop, first]

/-- Each token has for its text what stands in its span; the induction is on the tiling. -/
lemma slices (h : Tiled offset cs tokens) : ∀ {before : List Char},
    text.toList = before ++ cs → byteCount before = offset →
    ∀ t ∈ tokens, t.span.slice? text = some t.text := by
  induction h with
  | @closing offset gap blank =>
      intro before whole start
      refine List.forall_mem_singleton.2 (slice?_iff.2 ⟨before ++ gap, [], ?_, ?_, ?_⟩)
      · simpa [Token.endOfInput] using whole
      · rw [byteCount_append, start]
        rfl
      · simp [Token.endOfInput, byteCount_append, start]
  | @token offset gap rest t ts blank scans first stop others ih =>
      intro before whole start
      obtain ⟨whole', start'⟩ := next whole start first stop
      refine List.forall_mem_cons.2 ⟨slice?_iff.2 ⟨before ++ gap, rest, whole', ?_, start'⟩,
        ih whole' start'⟩
      rw [byteCount_append, start, first]

/-- Between one token and the next there are only blanks. -/
lemma between (h : Tiled offset cs tokens) : ∀ {before : List Char},
    text.toList = before ++ cs → byteCount before = offset →
    tokens.IsChain fun t u => BlankBetween text t.span.stop u.span.start := by
  induction h with
  | closing blank => exact fun _ _ => List.isChain_singleton _
  | @token offset gap rest t ts blank scans first stop others ih =>
      intro before whole start
      obtain ⟨whole', start'⟩ := next whole start first stop
      refine List.isChain_cons.2 ⟨fun u head => ?_, ih whole' start'⟩
      obtain ⟨us, rfl⟩ := List.head?_eq_some_iff.1 head
      exact others.blankBetween whole' start'

lemma le_start (h : Tiled offset cs tokens) : ∀ t ∈ tokens, offset ≤ t.span.start := by
  induction h with
  | closing blank => exact List.forall_mem_singleton.2 (Nat.le_add_right _ _)
  | token blank scans first stop others ih =>
      refine List.forall_mem_cons.2 ⟨by omega, fun u mem => ?_⟩
      have := ih u mem
      omega

lemma byteCount_pos (h : cs ≠ []) : 0 < byteCount cs := by
  cases cs with
  | nil => exact absurd rfl h
  | cons c cs =>
      have := c.utf8Size_pos
      rw [byteCount]
      omega

/-- Tokens are not empty, and each begins behind all tokens before it. -/
lemma rising (h : Tiled offset cs tokens) : tokens.Pairwise fun t u =>
    t.span.start < t.span.stop ∧ t.span.stop ≤ u.span.start := by
  induction h with
  | closing blank => exact List.pairwise_singleton _ _
  | token blank scans first stop others ih =>
      refine List.pairwise_cons.2 ⟨fun u mem => ⟨?_, others.le_start u mem⟩, ih⟩
      have pos := byteCount_pos (String.toList_eq_nil_iff.not.2 scans.ne_empty)
      omega

/-- The end of input stands behind the text, and all tokens in front of it are scanned. -/
lemma exists_scanned (h : Tiled offset cs tokens) : ∃ ts,
    tokens = ts ++ [Token.endOfInput (offset + byteCount cs)] ∧
      ∀ t ∈ ts, ∃ rest, t.Scans rest := by
  induction h with
  | closing blank => exact ⟨[], rfl, by simp⟩
  | @token offset gap rest t ts blank scans first stop others ih =>
      obtain ⟨us, same, scanned⟩ := ih
      refine ⟨t :: us, ?_, List.forall_mem_cons.2 ⟨⟨rest, scans⟩, scanned⟩⟩
      rw [same, byteCount_append, byteCount_append, stop, first, List.cons_append]
      simp only [Nat.add_assoc]

/-- Behind an open quote there is nothing but the end of the input. -/
lemma unclosed (h : Tiled offset cs tokens) : ∀ {ts us : List Token}, tokens = ts ++ t :: us →
    t.kind = .unterminated → us = [Token.endOfInput t.span.stop] := by
  induction h with
  | closing blank =>
      intro ts us same kind
      cases ts with
      | nil =>
          cases same
          cases kind
      | cons u ts =>
          have := congrArg List.length same
          simp at this
  | @token offset gap rest u vs blank scans first stop others ih =>
      intro ts us same kind
      cases ts with
      | nil =>
          rw [List.nil_append, List.cons.injEq] at same
          obtain ⟨rfl, rfl⟩ := same
          rw [scans.eq_nil_of_unterminated kind] at others
          have only := tokensFrom_iff_tiled.2 others
          rw [tokensFrom] at only
          exact (Except.ok.inj only).symm
      | cons v ts => exact ih (List.cons.inj same).2 kind

end Tiled

/-! ## The main statement -/

/-- What tokens have to do with the text that they were cut from. -/
structure Lossless (text : String) (tokens : List Token) : Prop where
  /-- Every token is the slice of the text at its span, on boundaries of characters. -/
  slices : ∀ t ∈ tokens, t.span.slice? text = some t.text
  /-- The spans are strictly increasing and do not overlap. -/
  rising : tokens.Pairwise fun t u => t.span.start < t.span.stop ∧ t.span.stop ≤ u.span.start
  /-- Only blanks are in front of the first token. -/
  front : ∀ t ∈ tokens.head?, BlankBetween text 0 t.span.start
  /-- Only blanks are between a token and the next. -/
  between : tokens.IsChain fun t u => BlankBetween text t.span.stop u.span.start
  /-- The end of input stands behind the whole text and nowhere else; no other token is empty. -/
  closing : ∃ ts, tokens = ts ++ [Token.endOfInput text.utf8ByteSize] ∧
    ∀ t ∈ ts, t.kind ≠ .endOfInput ∧ t.text ≠ ""
  /-- Tokens that are not quoted have no blanks and no quotes, and no marks unless they are one. -/
  plain : ∀ t ∈ tokens, t.kind ≠ .string → t.kind ≠ .char → t.kind ≠ .unterminated →
    ∀ c ∈ t.text.toList, isBlank c = false ∧ c ≠ '"' ∧ c ≠ '\'' ∧
      ∀ kind, (c, kind) ∈ marks → t.kind = kind ∧ t.text = String.ofList [c]
  /-- An unclosed literal goes on to the end of the text. -/
  unclosed : ∀ ts t us, tokens = ts ++ t :: us → t.kind = .unterminated →
    t.span.stop = text.utf8ByteSize ∧ us = [Token.endOfInput text.utf8ByteSize]

/-- What the marks are in terms of the other classes, and that no two are the same. -/
lemma of_mem_marks (mark : (c, kind) ∈ marks) : isNameChar c = false ∧ isBlank c = false ∧
    c ≠ '"' ∧ c ≠ '\'' ∧ ∀ other, (c, other) ∈ marks → kind = other := by
  have all : ∀ m ∈ marks, isNameChar m.1 = false ∧ isBlank m.1 = false ∧ m.1 ≠ '"' ∧ m.1 ≠ '\'' ∧
      ∀ n ∈ marks, m.1 = n.1 → m.2 = n.2 := by decide
  obtain ⟨stop, inked, double, single, unique⟩ := all _ mark
  exact ⟨stop, inked, double, single, fun other mem => unique _ mem rfl⟩

/-- Outside quoted texts, a token has no blank and no quote in it, and a mark is a token by
itself. -/
lemma Token.Scans.plain_chars (h : t.Scans rest) (string : t.kind ≠ .string)
    (char : t.kind ≠ .char) (closed : t.kind ≠ .unterminated) : ∀ c ∈ t.text.toList,
    isBlank c = false ∧ c ≠ '"' ∧ c ≠ '\'' ∧
      ∀ kind, (c, kind) ∈ marks → t.kind = kind ∧ t.text = String.ofList [c] := by
  intro c mem
  rcases h.plain string char closed with names | ⟨d, mark, same⟩
  · have name := names c mem
    refine ⟨isBlank_of_isNameChar name, ?_, ?_, fun kind mark => ?_⟩
    · rintro rfl
      exact absurd name (by decide)
    · rintro rfl
      exact absurd name (by decide)
    · rw [(of_mem_marks mark).1] at name
      cases name
  · rw [same, List.mem_singleton] at mem
    subst mem
    obtain ⟨-, inked, double, single, unique⟩ := of_mem_marks mark
    refine ⟨inked, double, single, fun kind other => ⟨unique kind other, ?_⟩⟩
    rw [← same, String.ofList_toList]

/-- **Cutting a text into tokens loses nothing but blanks.** -/
theorem tokenize_lossless (cut : tokenize text = .ok tokens) : Lossless text tokens := by
  have tiled : Tiled 0 text.toList tokens := tokensFrom_iff_tiled.1 cut
  obtain ⟨ts, same, scanned⟩ := tiled.exists_scanned
  rw [Nat.zero_add, ← utf8ByteSize_eq] at same
  have whole : text.toList = [] ++ text.toList := rfl
  refine ⟨tiled.slices whole rfl, tiled.rising, fun t head => ?_, tiled.between whole rfl,
    ⟨ts, same, fun t mem => ?_⟩, fun t mem string char closed => ?_, fun us t vs split kind => ?_⟩
  · obtain ⟨us, rfl⟩ := List.head?_eq_some_iff.1 head
    exact tiled.blankBetween whole rfl
  · obtain ⟨rest, scans⟩ := scanned t mem
    exact ⟨scans.kind_ne, scans.ne_empty⟩
  · rw [same] at mem
    rcases List.mem_append.1 mem with mem | last
    · obtain ⟨rest, scans⟩ := scanned t mem
      exact scans.plain_chars string char closed
    · rw [List.mem_singleton.1 last]
      intro c none
      cases none
  · have last := tiled.unclosed split kind
    have ends := congrArg List.getLast? (same.symm.trans split)
    rw [last] at ends
    simp only [List.getLast?_append, List.getLast?_singleton, List.getLast?_cons_cons,
      Option.some_or, Option.some.injEq, Token.endOfInput, Token.mk.injEq, Span.mk.injEq, true_and]
      at ends
    rw [last, ← ends.1]
    exact ⟨rfl, rfl⟩

/-- Signs, dots and letters of more than one byte, and a literal that is not closed. -/
theorem tokenize_lossless_unclosed : ∃ tokens,
    tokenize "@p.Ä( -.5f,\n 'é'= -x) \"…" = .ok tokens ∧ tokens.length = 11 ∧
      Lossless "@p.Ä( -.5f,\n 'é'= -x) \"…" tokens := by
  have length : ((tokenize "@p.Ä( -.5f,\n 'é'= -x) \"…").toOption.map List.length) = some 11 := by
    decide +kernel
  cases cut : tokenize "@p.Ä( -.5f,\n 'é'= -x) \"…" with
  | error e =>
      rw [cut] at length
      cases length
  | ok tokens =>
      rw [cut] at length
      exact ⟨tokens, rfl, Option.some.inj length, tokenize_lossless cut⟩

end DocAnnotations
