import DocAnnotations.Node
import DocAnnotations.Proofs.Token.Stopping
import Mathlib.Data.List.Chain

/-!
# Lexemes

A word is the text of a name or literal; a mark is a punctuation character or the end of input.  A
text is a lexeme of a kind when the lexer makes a single token of this kind of it.

**Tokens in their surroundings.**  What follows a word does not matter to it if it `Stops` there:
names, numbers and quoted texts are scanned as they are at the end of a text.

**Lexemes.**  **`isLexeme_of_tokensFrom`**: among tokens of which no two words are neighbours, every
word is a lexeme by itself.

**Texts made of lexemes.**  `Lexes` says which tokens a text is cut into wherever it stands.  It is
kept by texts one after the other, so that a word is read again as the same token wherever a mark or
a blank follows it (`lexes_word`).
-/

namespace DocAnnotations

open Text

/-! ## Kinds -/

namespace TokenKind

/-- Names and literals. -/
def isWord (kind : TokenKind) : Bool := kind.literalKind?.isSome

/-- Punctuation marks other than the dot, and the end of input. -/
def isMark : TokenKind → Bool
  | leftParen | rightParen | leftBrace | rightBrace | comma | colon | bang | equals | atSign
  | endOfInput => true
  | _ => false

lemma isMark_of_isWord {kind : TokenKind} (h : kind.isWord = true) : kind.isMark = false := by
  cases kind <;> first | rfl | cases h

end TokenKind

/-! ## Single tokens -/

variable {offset other : Nat} {c : Char} {cs w rest : List Char} {kind : TokenKind} {more : Nat}

/-- Whether a number starts at a character that is no punctuation mark, given what follows. -/
def beginsNumber (c : Char) (cs : List Char) : Bool :=
  if c = '.' ∨ c = '-' then startsNumber c cs else c.isDigit

/-- A character starts a mark, a quoted literal, or else a number, a dot or a name. -/
lemma scanToken_shape (c : Char) :
    (∃ kind : TokenKind, kind.isMark = true ∧ kind ≠ .endOfInput ∧ isNameChar c = false ∧
      ∀ offset cs, scanToken offset c cs = .ok (kind, 0)) ∨
    (∃ kind : TokenKind, (kind = .string ∨ kind = .char) ∧ isNameChar c = false ∧
      ∀ offset cs, scanToken offset c cs = .ok (scanQuoted c kind cs)) ∨
    ∀ offset cs, scanToken offset c cs = if beginsNumber c cs then scanNumber offset c cs
      else if c = '.' then .ok (.dot, 0) else .ok (scanName c cs) := by
  by_cases mark : c ∈ punctuation
  · simp only [punctuation, List.mem_cons, List.not_mem_nil, or_false] at mark
    rcases mark with rfl | rfl | rfl | rfl | rfl | rfl | rfl | rfl | rfl | rfl | rfl
    iterate 9 exact .inl ⟨_, rfl, by decide, by decide, fun _ _ => rfl⟩
    · exact .inr (.inl ⟨_, .inl rfl, by decide, fun _ _ => rfl⟩)
    · exact .inr (.inl ⟨_, .inr rfl, by decide, fun _ _ => rfl⟩)
  · refine .inr (.inr fun offset cs => ?_)
    simp only [punctuation, List.mem_cons, List.not_mem_nil, or_false, not_or] at mark
    unfold scanToken beginsNumber
    split
    iterate 11 exact absurd mark (by decide)
    · simp
    · simp
    · next dot minus => simp [show c ≠ '.' from dot, show c ≠ '-' from minus]

lemma kind_of_scanQuoted (quote : Char) (kind : TokenKind) (cs : List Char) :
    (scanQuoted quote kind cs).1 = kind ∨ (scanQuoted quote kind cs).1 = .unterminated := by
  unfold scanQuoted
  split
  · exact .inl rfl
  · exact .inr rfl

lemma isWord_scanName : (scanName c cs).1.isWord = true := by
  unfold scanName
  dsimp only
  split <;> rfl

lemma isWord_kind? {n : NumberText} (h : n.kind? = some kind) : kind.isWord = true := by
  have whole : ∀ body, (NumberText.wholeKind body).isWord = true := fun body => by
    unfold NumberText.wholeKind
    split <;> rfl
  unfold NumberText.kind? at h
  dsimp only at h
  split_ifs at h
  · cases h
    rfl
  · cases h
    rfl
  · cases h
    exact whole _
  · split at h
    · split_ifs at h
      cases h
      exact whole _
    · cases h

/-- A number is a word of the given length, or it has no kind. -/
lemma scanNumber_ok (h : scanNumber offset c cs = .ok (kind, more)) :
    (NumberText.split (c :: cs)).kind? = some kind ∧
      more = (NumberText.split (c :: cs)).chars.length - 1 := by
  unfold scanNumber at h
  dsimp only at h
  split at h
  · next found =>
    cases h
    exact ⟨found, rfl⟩
  · cases h

/-- What a token can be: a mark, which is one character that is no part of names; an unclosed
literal; a dot; or a word. -/
lemma kind_of_scanToken (h : scanToken offset c cs = .ok (kind, more)) :
    (kind.isMark = true ∧ kind ≠ .endOfInput ∧ isNameChar c = false) ∨ kind = .unterminated ∨
      kind = .dot ∨ kind.isWord = true := by
  rcases scanToken_shape c with ⟨mark, isMark, inner, stop, scan⟩ | ⟨quoted, kinds, -, scan⟩ | scan
  · rw [scan] at h
    cases h
    exact .inl ⟨isMark, inner, stop⟩
  · rw [scan] at h
    have found := Except.ok.inj h
    rcases kind_of_scanQuoted c quoted cs with same | same
    · rw [found] at same
      subst same
      rcases kinds with rfl | rfl <;> exact .inr (.inr (.inr rfl))
    · rw [found] at same
      exact .inr (.inl same)
  · rw [scan] at h
    split_ifs at h
    · exact .inr (.inr (.inr (isWord_kind? (scanNumber_ok h).1)))
    · cases h
      exact .inr (.inr (.inl rfl))
    · have same : (scanName c cs).1 = kind := by rw [Except.ok.inj h]
      exact .inr (.inr (.inr (same ▸ isWord_scanName)))

/-- No other character starts a token of the kind of `@`. -/
lemma eq_atSign (scan : scanToken offset c cs = .ok (.atSign, more)) : c = '@' := by
  have quoted : ∀ quote kind, kind ≠ .atSign → scanQuoted quote kind cs ≠ (.atSign, more) := by
    intro quote kind other same
    rcases kind_of_scanQuoted quote kind cs with found | found
    · rw [same] at found
      exact other found.symm
    · rw [same] at found
      cases found
  have number : ∀ c, scanNumber offset c cs ≠ .ok (.atSign, more) := fun c same => by
    cases isWord_kind? (scanNumber_ok same).1
  have name : ∀ c, scanName c cs ≠ (.atSign, more) := fun c same => by
    have word : (scanName c cs).1.isWord = true := isWord_scanName
    rw [same] at word
    cases word
  unfold scanToken at scan
  split at scan
  case h_9 => rfl
  case h_10 | h_11 => exact absurd (Except.ok.inj scan) (quoted _ _ nofun)
  case h_12 =>
    split_ifs at scan
    · exact absurd scan (number _)
    · cases scan
  case h_13 | h_14 =>
    split_ifs at scan
    · exact absurd scan (number _)
    · exact absurd (Except.ok.inj scan) (name _)
  all_goals cases scan

/-- No number is taken for a name. -/
lemma kind?_ne_identifier (number : NumberText) : number.kind? ≠ some .identifier := by
  have whole : ∀ body, NumberText.wholeKind body ≠ .identifier := fun body => by
    unfold NumberText.wholeKind
    split <;> decide
  unfold NumberText.kind?
  dsimp only
  split_ifs
  · simp
  · simp
  · simpa using whole _
  · split
    · split_ifs
      · simpa using whole _
      · simp
    · simp

/-- A name goes on as long as there are characters of names. -/
lemma length_of_identifier (scan : scanToken offset c cs = .ok (.identifier, more)) :
    more = (cs.takeWhile isNameChar).length := by
  rcases scanToken_shape c with ⟨kind, mark, -, -, shape⟩ | ⟨quoted, kinds, -, shape⟩ | shape
  · rw [shape] at scan
    cases scan
    cases mark
  · rw [shape] at scan
    have found := kind_of_scanQuoted c quoted cs
    rw [Except.ok.inj scan] at found
    rcases kinds with rfl | rfl <;> rcases found with found | found <;> cases found
  · rw [shape] at scan
    split_ifs at scan
    · exact absurd (scanNumber_ok scan).1 (kind?_ne_identifier _)
    · cases scan
    · exact (congrArg Prod.snd (Except.ok.inj scan)).symm

/-! ## Quoted literals -/

section

variable {quote : Char}

/-- A quoted text ends at its quote; a backslash takes the next character with it, and any other
character is passed by itself. -/
lemma quotedLength_cons_ok {n : Nat} : quotedLength quote (c :: cs) = some n ↔
    (c = '\\' ∧ ∃ d ds m, cs = d :: ds ∧ quotedLength quote ds = some m ∧ n = m + 2) ∨
      (c ≠ '\\' ∧ c = quote ∧ n = 1) ∨
      (c ≠ '\\' ∧ c ≠ quote ∧ ∃ m, quotedLength quote cs = some m ∧ n = m + 1) := by
  rw [quotedLength.eq_def]
  by_cases escape : c = '\\'
  · subst escape
    cases cs <;> grind [Option.map_eq_some_iff]
  · by_cases closes : c = quote <;> grind [Option.map_eq_some_iff]

lemma quotedLength_pos {n : Nat} (h : quotedLength quote cs = some n) : 0 < n := by
  cases cs with
  | nil => cases h
  | cons c cs =>
      rcases quotedLength_cons_ok.1 h with
        ⟨-, -, -, m, -, -, rfl⟩ | ⟨-, -, rfl⟩ | ⟨-, -, m, -, rfl⟩ <;> omega

/-- A quoted text that ends does so within the text. -/
lemma quotedLength_le : ∀ (cs : List Char) {n : Nat}, quotedLength quote cs = some n → n ≤ cs.length
  | [], _, h => by cases h
  | c :: cs, n, h => by
      rcases quotedLength_cons_ok.1 h with
        ⟨-, d, ds, m, rfl, inner, rfl⟩ | ⟨-, -, rfl⟩ | ⟨-, -, m, inner, rfl⟩
      · simpa using quotedLength_le ds inner
      · simp
      · simpa using quotedLength_le cs inner

/-- What stands behind the closing quote does not matter. -/
lemma quotedLength_append (rest : List Char) : ∀ (w : List Char) {n : Nat}, n ≤ w.length →
    (quotedLength quote (w ++ rest) = some n ↔ quotedLength quote w = some n)
  | [], n, le => by
      constructor
      · intro h
        exact absurd (quotedLength_pos h) (by simpa using le)
      · intro h
        cases h
  | [c], n, le => by
      rw [List.cons_append, quotedLength_cons_ok, quotedLength_cons_ok]
      have pos := @quotedLength_pos
      simp only [List.length_cons, List.length_nil, List.nil_append] at *
      grind
  | c :: d :: w, n, le => by
      rw [List.cons_append, quotedLength_cons_ok, quotedLength_cons_ok]
      have one := fun n => @quotedLength_append rest (d :: w) n
      have two := fun n => @quotedLength_append rest w n
      simp only [List.length_cons, List.cons_append] at *
      grind

/-- A token is quoted if and only if its quote is closed, and it goes up to there. -/
lemma scanQuoted_eq {quoted : TokenKind} (closed : kind ≠ .unterminated) :
    scanQuoted quote quoted cs = (kind, more) ↔
      quotedLength quote cs = some more ∧ kind = quoted := by
  unfold scanQuoted
  cases quotedLength quote cs with
  | none => simpa using fun same => absurd same.symm closed
  | some n => simp [and_comm, eq_comm]

end

/-! ## Tokens in their surroundings -/

/-- A token does not depend on its place. -/
lemma scanToken_offset (h : scanToken offset c cs = .ok (kind, more)) :
    scanToken other c cs = .ok (kind, more) := by
  rcases scanToken_shape c with ⟨_, -, -, -, scan⟩ | ⟨_, -, -, scan⟩ | scan
  · rwa [scan] at h ⊢
  · rwa [scan] at h ⊢
  · rw [scan] at h ⊢
    split_ifs at h ⊢
    · obtain ⟨found, rfl⟩ := scanNumber_ok h
      simp only [scanNumber, found]
    · exact h
    · exact h

/-- A token takes no more characters than there are. -/
lemma length_of_scanToken (closed : kind ≠ .unterminated)
    (h : scanToken offset c cs = .ok (kind, more)) : more ≤ cs.length := by
  rcases scanToken_shape c with ⟨_, -, -, -, scan⟩ | ⟨_, -, -, scan⟩ | scan
  · rw [scan] at h
    cases h
    exact Nat.zero_le _
  · rw [scan] at h
    exact quotedLength_le cs ((scanQuoted_eq closed).1 (Except.ok.inj h)).1
  · rw [scan] at h
    split_ifs at h
    · obtain ⟨-, rfl⟩ := scanNumber_ok h
      have := NumberText.length_chars_split_le (c :: cs)
      simp only [List.length_cons] at this
      omega
    · cases h
      exact Nat.zero_le _
    · have same : (scanName c cs).2 = more := by rw [Except.ok.inj h]
      rw [← same]
      exact (List.takeWhile_prefix _).length_le

/-- Whether a number begins does not depend on what follows the token. -/
lemma beginsNumber_append (stops : Stops rest) : beginsNumber c (w ++ rest) = beginsNumber c w := by
  have starts : startsNumber c (w ++ rest) = startsNumber c w := by
    cases w with
    | nil =>
        cases rest with
        | nil => rfl
        | cons d ds =>
            have stop := stops_cons.1 stops
            have dot := beq_false_of_ne (ne_of_stop (d := '.') stop (by decide))
            simp [startsNumber, isDigit_of_stop stop, dot]
    | cons d ds => rfl
  rw [beginsNumber, beginsNumber, starts]

/-- A name is read up to its end, whatever follows from there. -/
lemma scanName_append (stops : Stops rest) : scanName c (w ++ rest) = scanName c w := by
  rw [scanName, scanName, NumberText.takeWhile_append_of_stop stops]

/-- A number is read up to its end, whatever follows from there. -/
lemma scanNumber_append (stops : Stops rest) :
    scanNumber offset c (w ++ rest) = scanNumber offset c w := by
  rw [scanNumber, scanNumber, ← List.cons_append, NumberText.split_append stops]

/-- What stops behind a token does not change it. -/
lemma scanToken_append (stops : Stops rest) (closed : kind ≠ .unterminated) :
    scanToken offset c (w ++ rest) = .ok (kind, w.length) ↔
      scanToken offset c w = .ok (kind, w.length) := by
  rcases scanToken_shape c with ⟨_, -, -, -, scan⟩ | ⟨_, -, -, scan⟩ | scan
  · rw [scan, scan]
  · rw [scan, scan, Except.ok.injEq, Except.ok.injEq, scanQuoted_eq closed, scanQuoted_eq closed,
      quotedLength_append rest w (Nat.le_refl _)]
  · rw [scan, scan, beginsNumber_append stops, scanNumber_append stops, scanName_append stops]

/-! ## Lexemes -/

/-- The lexer makes a single token of the given kind of the text. -/
def IsLexeme (kind : TokenKind) (word : List Char) : Prop :=
  ∃ c w, word = c :: w ∧ isBlank c = false ∧ kind ≠ .unterminated ∧
    scanToken 0 c w = .ok (kind, w.length)

/-- How many bytes the characters take. -/
def byteCount : List Char → Nat
  | [] => 0
  | c :: cs => c.utf8Size + byteCount cs

/-- The characters that belong to the last token are passed over, and only move the offset on. -/
lemma tokensFrom_skip (w rest : List Char) (offset : Nat) :
    tokensFrom offset w.length (w ++ rest)
      = tokensFrom (offset + byteCount w) 0 rest := by
  induction w generalizing offset with
  | nil => rfl
  | cons c w ih =>
      rw [List.length_cons, List.cons_append, tokensFrom, ih, byteCount, Nat.add_assoc]

/-- Text that starts without a blank is cut into tokens if and only if one can be scanned there, and
the rest can be cut. -/
lemma tokensFrom_cons_ok {tokens : List Token} (inked : isBlank c = false) :
    tokensFrom offset 0 (c :: cs) = .ok tokens ↔ ∃ kind more others,
      scanToken offset c cs = .ok (kind, more) ∧
      tokensFrom (offset + c.utf8Size) more cs = .ok others ∧
      tokens = ⟨kind, String.ofList (c :: cs.take more),
        ⟨offset, offset + (String.ofList (c :: cs.take more)).utf8ByteSize⟩⟩ :: others := by
  rw [tokensFrom, inked]
  simp only [Bool.false_eq_true, if_false, bind, Except.bind, pure, Except.pure]
  constructor
  · intro h
    split at h
    · cases h
    · next scanned scan =>
      split at h
      · cases h
      · next others next =>
        cases h
        exact ⟨scanned.1, scanned.2, others, scan, next, rfl⟩
  · rintro ⟨kind, more, others, scan, next, rfl⟩
    simp only [scan, next]

lemma tokensFrom_cons_blank (blank : isBlank c = true) :
    tokensFrom offset 0 (c :: cs) = tokensFrom (offset + c.utf8Size) 0 cs := by
  rw [tokensFrom, if_pos blank]

/-- Only the last token of a text is the end of input. -/
lemma tokensFrom_ok : ∀ {cs : List Char} {offset skip : Nat} {tokens : List Token},
    tokensFrom offset skip cs = .ok tokens → ∃ ts closing, tokens = ts ++ [closing] ∧
      closing.kind = .endOfInput ∧ ∀ t ∈ ts, t.kind ≠ .endOfInput
  | [], offset, skip, _, h => by
      rw [tokensFrom] at h
      cases h
      exact ⟨[], _, rfl, rfl, by simp⟩
  | c :: cs, offset, skip + 1, _, h => by
      rw [tokensFrom] at h
      exact tokensFrom_ok h
  | c :: cs, offset, 0, tokens, h => by
      cases ink : isBlank c with
      | true =>
          rw [tokensFrom_cons_blank ink] at h
          exact tokensFrom_ok h
      | false =>
          obtain ⟨kind, more, others, scan, next, rfl⟩ := (tokensFrom_cons_ok ink).1 h
          obtain ⟨ts, closing, rfl, final, inner⟩ := tokensFrom_ok next
          refine ⟨_ :: ts, closing, rfl, final, List.forall_mem_cons.2 ⟨?_, inner⟩⟩
          rcases kind_of_scanToken scan with ⟨-, inner, -⟩ | rfl | rfl | word
          · exact inner
          · simp
          · simp
          · rintro rfl
            cases word

/-- Where the next token is a mark, nothing that continues a name comes next. -/
lemma stops_of_mark {t : Token} {ts : List Token} (h : tokensFrom offset 0 rest = .ok (t :: ts))
    (mark : t.kind.isMark = true) : Stops rest := by
  cases rest with
  | nil => exact stops_nil
  | cons c cs =>
      rw [stops_cons]
      cases ink : isBlank c with
      | true => simp [isNameChar, ink]
      | false =>
          obtain ⟨kind, more, others, scan, next, same⟩ := (tokensFrom_cons_ok ink).1 h
          cases same
          rcases kind_of_scanToken scan with ⟨-, -, stop⟩ | rfl | rfl | word
          · exact stop
          · cases mark
          · cases mark
          · rw [TokenKind.isMark_of_isWord word] at mark
            cases mark

/-- No word has a neighbour that is a word, a dot or an unclosed literal. -/
def WordsApart (tokens : List Token) : Prop :=
  tokens.IsChain fun t u => t.kind.isWord = true → u.kind.isMark = true

/-- **Words among marks are lexemes.** -/
theorem isLexeme_of_tokensFrom : ∀ {cs : List Char} {offset skip : Nat} {tokens : List Token},
    tokensFrom offset skip cs = .ok tokens → WordsApart tokens →
    ∀ t ∈ tokens, t.kind.isWord = true → IsLexeme t.kind t.text.toList
  | [], offset, skip, _, h, _ => by
      rw [tokensFrom] at h
      cases h
      simp [Token.endOfInput, TokenKind.isWord, TokenKind.literalKind?]
  | c :: cs, offset, skip + 1, _, h, apart => by
      rw [tokensFrom] at h
      exact isLexeme_of_tokensFrom h apart
  | c :: cs, offset, 0, tokens, h, apart => by
      cases ink : isBlank c with
      | true =>
          rw [tokensFrom_cons_blank ink] at h
          exact isLexeme_of_tokensFrom h apart
      | false =>
          obtain ⟨kind, more, others, scan, next, rfl⟩ := (tokensFrom_cons_ok ink).1 h
          have ih := isLexeme_of_tokensFrom next apart.tail
          refine List.forall_mem_cons.2 ⟨fun word => ?_, ih⟩
          have closed : kind ≠ .unterminated := by
            rintro rfl
            cases word
          -- what is left behind the word starts with the next token, which is a mark
          have length : (cs.take more).length = more :=
            List.length_take_of_le (length_of_scanToken closed scan)
          rw [← List.take_append_drop more cs] at scan next
          have skip := tokensFrom_skip (cs.take more) (cs.drop more) (offset + c.utf8Size)
          rw [length] at skip
          rw [skip] at next
          obtain ⟨ts, closing, rfl, -⟩ := tokensFrom_ok next
          have stops : Stops (cs.drop more) := by
            cases ts with
            | nil => exact stops_of_mark next (apart.rel word)
            | cons t ts => exact stops_of_mark next (apart.rel word)
          refine ⟨c, cs.take more, String.toList_ofList, ink, closed, ?_⟩
          exact (scanToken_append stops closed).1 (by rw [length]; exact scanToken_offset scan)

/-! ## Texts made of lexemes -/

/-- Before any text with the given property and with tokens, the characters are cut into the
tokens. -/
def Lexes (Follow : List Char → Prop) (offset : Nat) (cs : List Char) (tokens : List Token)
    (stop : Nat) : Prop :=
  ∀ rest ts, Follow rest → tokensFrom stop 0 rest = .ok ts →
    tokensFrom offset 0 (cs ++ rest) = .ok (tokens ++ ts)

/-- Whatever follows. -/
abbrev Anything : List Char → Prop := fun _ => True

variable {Follow Later : List Char → Prop} {middle stop : Nat} {tokens others : List Token}

/-- Texts that are cut into tokens are so one after the other, if each may be followed by the
next. -/
lemma Lexes.append (first : Lexes Follow offset w tokens middle)
    (second : Lexes Later middle cs others stop)
    (follows : ∀ rest, Later rest → Follow (cs ++ rest)) :
    Lexes Later offset (w ++ cs) (tokens ++ others) stop := by
  intro rest ts later next
  rw [List.append_assoc, List.append_assoc]
  exact first _ _ (follows rest later) (second rest ts later next)

/-- What follows a mark does not matter. -/
lemma Lexes.then (first : Lexes Anything offset w tokens middle)
    (second : Lexes Later middle cs others stop) :
    Lexes Later offset (w ++ cs) (tokens ++ others) stop :=
  first.append second fun _ _ => trivial

/-- Words end where the next mark or blank begins. -/
lemma Lexes.before (first : Lexes Stops offset w tokens middle) (stops : isNameChar c = false)
    (second : Lexes Later middle (c :: cs) others stop) :
    Lexes Later offset (w ++ c :: cs) (tokens ++ others) stop :=
  first.append second fun _ _ => stops_cons.2 stops

lemma lexes_blank (offset : Nat) : Lexes Anything offset [' '] [] (offset + 1) := by
  intro rest ts _ next
  rw [List.cons_append, tokensFrom_cons_blank (by decide)]
  exact next

/-- Where one token begins, all tokens begin with it. -/
lemma tokensFrom_of_scan {ts : List Token} (inked : isBlank c = false)
    (scan : scanToken offset c (w ++ rest) = .ok (kind, w.length))
    (next : tokensFrom (offset + byteCount (c :: w)) 0 rest = .ok ts) :
    tokensFrom offset 0 (c :: w ++ rest) = .ok (⟨kind, String.ofList (c :: w),
      ⟨offset, offset + (String.ofList (c :: w)).utf8ByteSize⟩⟩ :: ts) := by
  rw [List.cons_append, tokensFrom_cons_ok inked]
  refine ⟨kind, w.length, ts, scan, ?_, by rw [List.take_left]⟩
  rwa [tokensFrom_skip, Nat.add_assoc]

/-- A mark is a token by itself, whatever follows it. -/
lemma lexes_mark (inked : isBlank c = false)
    (scan : ∀ offset cs, scanToken offset c cs = .ok (kind, 0)) (offset : Nat) :
    Lexes Anything offset [c] [⟨kind, String.ofList [c],
      ⟨offset, offset + (String.ofList [c]).utf8ByteSize⟩⟩]
      (offset + byteCount [c]) :=
  fun rest _ _ next => tokensFrom_of_scan inked (scan offset rest) next

/-- A lexeme becomes the same token wherever nothing that continues a name follows. -/
lemma lexes_word (h : IsLexeme kind w) (offset : Nat) :
    Lexes Stops offset w [⟨kind, String.ofList w,
      ⟨offset, offset + (String.ofList w).utf8ByteSize⟩⟩]
      (offset + byteCount w) := by
  obtain ⟨c, w, rfl, inked, closed, scan⟩ := h
  intro rest ts stops next
  exact tokensFrom_of_scan inked ((scanToken_append stops closed).2 (scanToken_offset scan)) next

/-- A text that is cut into tokens to its end has these tokens and the end of input. -/
lemma tokenize_of_lexes {Follow : List Char → Prop} (h : Lexes Follow 0 cs tokens stop)
    (follow : Follow []) :
    tokenize (String.ofList cs) = .ok (tokens ++ [Token.endOfInput stop]) := by
  rw [tokenize, String.toList_ofList, ← List.append_nil cs]
  exact h [] _ follow rfl

/-- The tokens of a text end with the end of the input, which is none of the others. -/
lemma tokenize_ok {text : String} {tokens : List Token} (h : tokenize text = .ok tokens) :
    ∃ ts closing, tokens = ts ++ [closing] ∧ closing.kind = .endOfInput ∧
      ∀ t ∈ ts, t.kind ≠ .endOfInput :=
  tokensFrom_ok h

end DocAnnotations
