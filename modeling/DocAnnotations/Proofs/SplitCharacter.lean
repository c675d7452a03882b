import DocAnnotations.Proofs.Alone
import DocAnnotations.Proofs.Token.Lossless

/-!
# Texts without tokens

The lexer gives up at one kind of number only (`CutsCharacter`): digits, a long suffix, and further
name characters without a gap of which the last takes more than one byte.  To tell an octal number
from a decimal one, the last byte is cut off, and here it is a part of a character.  A text has such
a number where the lexer starts a token (`SplitsCharacter`), or it has tokens.

**Texts.**  `exists_tokenize_iff`: a text has tokens unless it splits a character.  One direction
follows the derivation of `SplitsCharacter`, the other the lexer through the text.

**Batches.**  `compiles_of_compileOccurrences`: a batch that is compiled to the end has no literal
that stops it.

**`stops_iff_splitsCharacter`**: a text has tokens, all of them slices of it, unless it splits a
character; and a batch is compiled to the end unless a literal that is not skipped does.
-/

namespace DocAnnotations

open Text

variable {c : Char} {cs rest : List Char} {offset : Nat} {text : String} {e : LexError}

/-! ## Numbers without a kind -/

/-- A text starts with digits, a long suffix and name characters behind it, of which the last takes
more than one byte. -/
inductive CutsCharacter : List Char → Prop
  | number {sign digits more rest : List Char} {suffix last : Char}
      (signed : sign = [] ∨ sign = ['-'])
      (some : digits ≠ []) (digit : ∀ c ∈ digits, c.isDigit = true)
      (long : suffix = 'l' ∨ suffix = 'L')
      (trails : ∀ c ∈ more ++ [last], (isNameChar c && c != '.') = true)
      (wide : last.utf8Size ≠ 1)
      (ends : ∀ c ∈ rest.head?, (isNameChar c && c != '.') = false) :
      CutsCharacter (sign ++ digits ++ suffix :: (more ++ last :: rest))

lemma CutsCharacter.ne_nil (h : CutsCharacter cs) : cs ≠ [] := by
  cases h
  simp

namespace NumberText

/-- Only numbers with a long suffix have no kind, for the last character behind the digits. -/
lemma of_kind?_eq_none {n : NumberText} (h : n.kind? = none) : n.mark = [] ∧ '.' ∉ n.digits ∧
    n.exponent = [] ∧ n.suffix ≠ [] ∧ (∀ c ∈ n.suffix, isFloatSuffix c = false) ∧
    ∀ last ∈ (n.suffix ++ n.trailer).getLast?, last.utf8Size ≠ 1 := by
  unfold kind? at h
  dsimp only at h
  split_ifs at h with marked float bare
  simp only [Bool.not_eq_true', Bool.not_eq_false, List.isEmpty_iff] at marked
  simp only [Bool.or_eq_true, not_or, List.contains_eq_mem, decide_eq_true_eq, Bool.not_eq_true',
    Bool.not_eq_false, List.isEmpty_iff, List.any_eq_true, not_exists, not_and,
    Bool.not_eq_true] at float
  obtain ⟨⟨whole, exponent⟩, suffixes⟩ := float
  have suffixed : n.suffix ≠ [] := fun none => bare (List.isEmpty_iff.2 none)
  refine ⟨marked, whole, exponent, suffixed, suffixes, fun last found => ?_⟩
  have same : (n.digits ++ n.suffix ++ n.trailer).getLast? = some last := by
    rw [List.append_assoc, List.getLast?_append, found]
    rfl
  rw [same] at h
  dsimp only at h
  split_ifs at h with narrow
  exact narrow

/-- At most one character is split off, and only one that was asked for. -/
lemma splitOne_fst (p : Char → Bool) (cs : List Char) : (splitOne p cs).1 = [] ∨
    ∃ c ds, cs = c :: ds ∧ p c = true ∧ (splitOne p cs).1 = [c] := by
  unfold splitOne
  split
  · split_ifs with fits
    · exact .inr ⟨_, _, rfl, fits, rfl⟩
    · exact .inl rfl
  · exact .inl rfl

/-- The parts of a number that is not hexadecimal. -/
lemma exists_parts (unmarked : (split cs).mark = []) : ∃ body tail after others,
    splitSign cs = ((split cs).sign, body) ∧ splitDigits body = ((split cs).digits, tail) ∧
      splitExponent tail = ((split cs).exponent, after) ∧
      splitOne (fun c => isFloatSuffix c || ((!(split cs).digits.contains '.' &&
        (split cs).exponent.isEmpty) && isLongSuffix c)) after = ((split cs).suffix, others) ∧
      (split cs).trailer = others.takeWhile fun c => isNameChar c && c != '.' := by
  have bare : (splitMark (splitSign cs).2).1 = [] := by
    unfold split at unmarked
    dsimp only at unmarked
    split_ifs at unmarked <;> exact unmarked
  have same : (splitMark (splitSign cs).2).2 = (splitSign cs).2 := by
    have join := splitMark_join (splitSign cs).2
    rwa [bare] at join
  rw [split]
  simp only [bare, same, List.isEmpty_nil, if_true]
  exact ⟨_, _, _, _, rfl, rfl, rfl, rfl, rfl⟩

end NumberText

/-- What begins like a number has a digit or a dot behind its sign. -/
lemma exists_of_beginsNumber (begins : beginsNumber c cs = true) : ∃ d ds,
    (NumberText.splitSign (c :: cs)).2 = d :: ds ∧ (d.isDigit = true ∨ d = '.') := by
  unfold beginsNumber at begins
  split_ifs at begins with odd
  · rcases odd with rfl | rfl
    · exact ⟨'.', cs, rfl, .inr rfl⟩
    · cases cs with
      | nil => cases begins
      | cons d ds =>
          refine ⟨d, ds, rfl, ?_⟩
          simpa [startsNumber] using begins
  · have minus : c ≠ '-' := fun same => odd (.inr same)
    exact ⟨c, cs, by simp [NumberText.splitSign, minus], .inl begins⟩

/-- A number without a kind is one that cuts a character.  Its digits could only be missing before
a dot, which is no suffix. -/
lemma cutsCharacter_of_kind? (begins : beginsNumber c cs = true)
    (h : (NumberText.split (c :: cs)).kind? = none) : CutsCharacter (c :: cs) := by
  obtain ⟨unmarked, whole, bare, suffixed, suffixes, wide⟩ := NumberText.of_kind?_eq_none h
  obtain ⟨body, tail, after, others, signs, digits, exponent, suffix, trailer⟩ :=
    NumberText.exists_parts unmarked
  obtain ⟨rest, join, ends⟩ := NumberText.exists_rest (c :: cs)
  have signed := NumberText.splitSign_fst (c :: cs)
  obtain ⟨d, ds, front, first⟩ := exists_of_beginsNumber begins
  rw [signs] at signed front
  generalize NumberText.split (c :: cs) = n at *
  have digit : ∀ d ∈ n.digits, d.isDigit = true := fun d mem =>
    (NumberText.digit_or_dot_of_mem (show d ∈ (NumberText.splitDigits body).1 by
      rwa [digits])).resolve_right fun dot => whole (dot ▸ mem)
  obtain ⟨s, more, same, fits, single⟩ :=
    (NumberText.splitOne_fst _ after).resolve_left (by rwa [suffix])
  replace single : n.suffix = [s] := by rwa [suffix] at single
  rw [single] at suffixes wide
  have long : s = 'l' ∨ s = 'L' := by
    rw [suffixes s List.mem_cons_self] at fits
    simp only [Bool.false_or, Bool.and_eq_true] at fits
    simpa [NumberText.isLongSuffix] using fits.2
  have some : n.digits ≠ [] := by
    intro none
    have left : body = d :: ds := front
    have digitless : body = tail := by
      have := NumberText.splitDigits_join body
      rw [digits, none] at this
      exact this.symm
    have bareless : tail = after := by
      have := NumberText.splitExponent_join tail
      rw [exponent, bare] at this
      exact this.symm
    rw [digitless, bareless, same, List.cons.injEq] at left
    rw [← left.1] at first
    rcases long with rfl | rfl <;> exact absurd first (by decide)
  have trails : ∀ d ∈ n.trailer, (isNameChar d && d != '.') = true := by
    intro d mem
    rw [trailer] at mem
    exact List.mem_takeWhile_imp (p := fun d => isNameChar d && d != '.') mem
  rcases List.eq_nil_or_concat n.trailer with none | ⟨more, last, same⟩
  · rw [none] at wide
    rcases long with rfl | rfl <;> exact absurd rfl (wide _ rfl)
  · rw [same, List.concat_eq_append] at trails wide
    have final : ([s] ++ (more ++ [last])).getLast? = Option.some last := by
      rw [← List.append_assoc, List.getLast?_concat]
    have cuts := CutsCharacter.number signed some digit long trails (wide last final) ends
    rw [join, NumberText.chars, unmarked, bare, single, same]
    simpa using cuts

/-- The parts of a number that cuts a character. -/
lemma split_of_cuts {sign digits more rest : List Char} {suffix last : Char}
    (signed : sign = [] ∨ sign = ['-']) (some : digits ≠ [])
    (digit : ∀ c ∈ digits, c.isDigit = true) (long : suffix = 'l' ∨ suffix = 'L')
    (trails : ∀ c ∈ more ++ [last], (isNameChar c && c != '.') = true)
    (ends : ∀ c ∈ rest.head?, (isNameChar c && c != '.') = false) :
    NumberText.split (sign ++ digits ++ suffix :: (more ++ last :: rest))
      = ⟨sign, [], digits, [], [suffix], more ++ [last]⟩ := by
  obtain ⟨d, ds, rfl⟩ := List.exists_cons_of_ne_nil some
  have first := digit d List.mem_cons_self
  have unsigned : NumberText.splitSign (sign ++ (d :: ds) ++ suffix :: (more ++ last :: rest))
      = (sign, d :: ds ++ suffix :: (more ++ last :: rest)) := by
    rcases signed with rfl | rfl
    · refine NumberText.splitSign_eq false fun x same => ?_
      cases same
      exact first
    · rfl
  have unmarked : NumberText.splitMark (d :: ds ++ suffix :: (more ++ last :: rest))
      = ([], d :: ds ++ suffix :: (more ++ last :: rest)) := by
    refine NumberText.splitMark_cons fun x second => ?_
    cases ds with
    | nil =>
        cases second
        rcases long with rfl | rfl <;> decide
    | cons e ds =>
        cases second
        have digit := digit x (by simp)
        exact ⟨(by rintro rfl; cases digit), (by rintro rfl; cases digit)⟩
  have whole := NumberText.contains_dot_of_digits digit
  have digits : NumberText.splitDigits (d :: ds ++ suffix :: (more ++ last :: rest))
      = (d :: ds, suffix :: (more ++ last :: rest)) := by
    rw [NumberText.splitDigits_digits digit, NumberText.splitDigits_stop, List.append_nil]
    rintro x ⟨⟩
    rcases long with rfl | rfl <;> decide
  have bare : NumberText.splitExponent (suffix :: (more ++ last :: rest))
      = ([], suffix :: (more ++ last :: rest)) := by
    cases more ++ last :: rest with
    | nil => rfl
    | cons x xs => rcases long with rfl | rfl <;> rfl
  have trailer : (more ++ last :: rest).takeWhile (fun c => isNameChar c && c != '.')
      = more ++ [last] := by
    rw [List.append_cons, NumberText.takeWhile_append_of_stop ends]
    exact List.takeWhile_eq_self_iff.2 trails
  have fits : NumberText.isLongSuffix suffix = true := by
    rcases long with rfl | rfl <;> decide
  simp only [NumberText.split, unsigned, unmarked, List.isEmpty_nil, if_true, digits, bare, whole,
    NumberText.splitOne, fits, Bool.not_false, Bool.and_self, Bool.or_true, trailer]

/-- A number behind which a character would be cut is of no kind. -/
lemma kind?_of_cuts (h : CutsCharacter cs) : (NumberText.split cs).kind? = none := by
  cases h with
  | @number sign digits more rest suffix last signed some digit long trails wide ends =>
      rw [split_of_cuts signed some digit long trails ends]
      have whole := NumberText.contains_dot_of_digits digit
      have float : NumberText.isFloatSuffix suffix = false := by
        rcases long with rfl | rfl <;> decide
      have final : (digits ++ [suffix] ++ (more ++ [last])).getLast? = Option.some last := by
        rw [← List.append_assoc, List.getLast?_concat]
      simp only [NumberText.kind?, List.isEmpty_nil, Bool.not_true, whole, List.any_cons, float,
        List.any_nil, Bool.or_self, Bool.false_eq_true, if_false, List.isEmpty_cons, final, wide]

/-- What is cut is taken for a number, and its first character could stand in a name. -/
lemma begins_of_cuts (h : CutsCharacter (c :: cs)) :
    beginsNumber c cs = true ∧ isNameChar c = true := by
  generalize whole : c :: cs = text at h
  cases h with
  | @number sign digits more rest suffix last signed some digit =>
      obtain ⟨d, ds, rfl⟩ := List.exists_cons_of_ne_nil some
      have signs : sign = if decide (sign = ['-']) then ['-'] else [] := by
        rcases signed with rfl | rfl <;> rfl
      obtain ⟨_, _, same, begins, name⟩ := exists_cons_of_digit (decide (sign = ['-']))
        (ds ++ suffix :: (more ++ last :: rest)) (digit d List.mem_cons_self)
      rw [← signs] at same
      simp only [List.append_assoc, List.cons_append] at whole
      rw [same, List.cons.injEq] at whole
      obtain ⟨rfl, rfl⟩ := whole
      exact ⟨begins, name⟩

/-- **The lexer gives up where a number cuts a character**, and nowhere else. -/
theorem scanToken_error_iff :
    (∃ e, scanToken offset c cs = .error e) ↔ CutsCharacter (c :: cs) := by
  constructor
  · rintro ⟨e, failed⟩
    rcases scanToken_shape c with ⟨_, -, -, -, scan⟩ | ⟨_, -, -, scan⟩ | scan
    · rw [scan] at failed
      cases failed
    · rw [scan] at failed
      cases failed
    · rw [scan] at failed
      split_ifs at failed with begins
      cases kind : (NumberText.split (c :: cs)).kind? with
      | none => exact cutsCharacter_of_kind? begins kind
      | some kind' =>
          simp only [scanNumber, kind] at failed
          cases failed
  · intro cuts
    obtain ⟨begins, name⟩ := begins_of_cuts cuts
    rcases scanToken_shape c with ⟨_, -, -, stop, -⟩ | ⟨_, -, stop, -⟩ | scan
    · rw [name] at stop
      cases stop
    · rw [name] at stop
      cases stop
    · refine ⟨.splitCharacter offset, ?_⟩
      rw [scan, if_pos begins, scanNumber, kind?_of_cuts cuts]

/-! ## Texts -/

/-- The lexer starts a token at a number that cuts a character. -/
inductive SplitsCharacter : List Char → Prop
  | here {cs : List Char} (cuts : CutsCharacter cs) : SplitsCharacter cs
  | blank {c : Char} {cs : List Char} (blank : isBlank c = true) (later : SplitsCharacter cs) :
      SplitsCharacter (c :: cs)
  | token {t : Token} {rest : List Char} (scans : t.Scans rest) (later : SplitsCharacter rest) :
      SplitsCharacter (t.text.toList ++ rest)

/-- Cutting into tokens fails if the first token cannot be scanned. -/
lemma tokensFrom_of_scan_error (inked : isBlank c = false)
    (scan : scanToken offset c cs = .error e) : tokensFrom offset 0 (c :: cs) = .error e := by
  rw [tokensFrom, inked]
  simp only [Bool.false_eq_true, if_false, bind, Except.bind, scan]

/-- Cutting into tokens fails if it fails behind the first token. -/
lemma tokensFrom_of_error {w : List Char} {kind : TokenKind} (inked : isBlank c = false)
    (scan : scanToken 0 c (w ++ rest) = .ok (kind, w.length))
    (later : tokensFrom (offset + byteCount (c :: w)) 0 rest = .error e) :
    tokensFrom offset 0 (c :: w ++ rest) = .error e := by
  have later' : tokensFrom (offset + c.utf8Size) w.length (w ++ rest) = .error e := by
    rwa [tokensFrom_skip, Nat.add_assoc]
  rw [List.cons_append, tokensFrom, inked]
  simp only [Bool.false_eq_true, if_false, bind, Except.bind, scanToken_offset scan, later']

/-- Where a character is split, cutting into tokens fails, from whatever offset it starts. -/
lemma SplitsCharacter.error (h : SplitsCharacter cs) :
    ∀ offset, ∃ e, tokensFrom offset 0 cs = .error e := by
  induction h with
  | @here cs cuts =>
      intro offset
      cases cs with
      | nil => exact absurd rfl cuts.ne_nil
      | cons c cs =>
          obtain ⟨e, failed⟩ := scanToken_error_iff.2 cuts
          exact ⟨e, tokensFrom_of_scan_error (isBlank_of_isNameChar (begins_of_cuts cuts).2) failed⟩
  | blank blank later ih =>
      intro offset
      rw [tokensFrom_cons_blank blank]
      exact ih _
  | token scans later ih =>
      intro offset
      obtain ⟨c, w, same, inked, scan⟩ := scans
      obtain ⟨e, failed⟩ := ih (offset + byteCount (c :: w))
      rw [same]
      exact ⟨e, tokensFrom_of_error inked scan failed⟩

/-- Where the lexer fails in a text, it fails at the first token or behind it. -/
lemma scan_error_or_later (inked : isBlank c = false)
    (failed : tokensFrom offset 0 (c :: cs) = .error e) : CutsCharacter (c :: cs) ∨
    ∃ (t : Token) (rest : List Char) (later : Nat), c :: cs = t.text.toList ++ rest ∧
      t.Scans rest ∧ rest.length ≤ cs.length ∧ tokensFrom later 0 rest = .error e := by
  cases scan : scanToken offset c cs with
  | error e => exact .inl (scanToken_error_iff.1 ⟨e, scan⟩)
  | ok found =>
      obtain ⟨kind, more⟩ := found
      obtain ⟨w, rest, rfl, rfl⟩ : ∃ w rest, cs = w ++ rest ∧ more = w.length :=
        ⟨cs.take more, cs.drop more, (List.take_append_drop more cs).symm,
          (List.length_take_of_le (le_length_of_scanToken scan)).symm⟩
      have later : tokensFrom (offset + c.utf8Size) w.length (w ++ rest) = .error e := by
        rw [tokensFrom, inked] at failed
        simp only [Bool.false_eq_true, if_false, bind, Except.bind, scan] at failed
        split at failed
        · next same =>
          rw [same]
          exact failed
        · cases failed
      rw [tokensFrom_skip] at later
      refine .inr ⟨⟨kind, String.ofList (c :: w), ⟨0, 0⟩⟩, rest, _, ?_, ?_, by simp, later⟩
      · rw [String.toList_ofList, List.cons_append]
      · exact ⟨c, w, String.toList_ofList, inked, scanToken_offset scan⟩

/-- Where cutting into tokens fails, a character is split; the induction is on the text. -/
lemma splitsCharacter_of_error : tokensFrom offset 0 cs = .error e → SplitsCharacter cs := by
  induction length : cs.length using Nat.strongRecOn generalizing cs offset with
  | ind n ih =>
    intro failed
    cases cs with
    | nil =>
        rw [tokensFrom] at failed
        cases failed
    | cons c cs =>
        rw [List.length_cons] at length
        cases ink : isBlank c with
        | true =>
            rw [tokensFrom_cons_blank ink] at failed
            exact .blank ink (ih cs.length (by omega) rfl failed)
        | false =>
            rcases scan_error_or_later ink failed with
              cuts | ⟨t, rest, _, whole, scans, shorter, later⟩
            · exact .here cuts
            · rw [whole]
              exact .token scans (ih rest.length (by omega) rfl later)

/-- **A text splits a character, or it has tokens.** -/
theorem exists_tokenize_iff :
    (∃ tokens, tokenize text = .ok tokens) ↔ ¬ SplitsCharacter text.toList := by
  constructor
  · rintro ⟨tokens, cut⟩ splits
    obtain ⟨e, failed⟩ := splits.error 0
    rw [tokenize, failed] at cut
    cases cut
  · intro whole
    cases cut : tokenize text with
    | ok tokens => exact ⟨tokens, rfl⟩
    | error e => exact absurd (splitsCharacter_of_error cut) whole

/-! ## Batches -/

variable {l : Loader} {o : Occurrence} {os : List Occurrence} {r : Registry}

/-- An occurrence can be compiled if and only if it is skipped, or no character of its literal is
split. -/
lemma compiles_iff : l.Compiles o.literal ↔
    l.skips o.literal = true ∨ ¬ SplitsCharacter o.literal.toList := by
  rw [Loader.Compiles, exists_tokenize_iff]

/-- A literal without tokens that is not skipped stops the batch. -/
lemma compileOccurrence_of_lexical {cause : LexError} (tried : l.skips o.literal = false)
    (failed : tokenize o.literal = .error cause) : compileOccurrence l o r = .error cause r := by
  have parsed : AnnotationNode.parse o.literal = .error (.lexical cause) := by
    rw [AnnotationNode.parse, Parse.runText, failed]
  have ran : compileLiteral l o.literal r = .error (.parse (.lexical cause)) r := by
    simp only [compileLiteral, parsed]
    rfl
  rw [compileOccurrence_of_error tried ran]
  rfl

/-- A batch is compiled to the end only if none of its literals stops it. -/
lemma compiles_of_compileOccurrences {found outcomes : List (Occurrence × Outcome)}
    {r' : Registry} (ran : compileOccurrences l found os r = .ok outcomes r') :
    ∀ o ∈ os, l.Compiles o.literal := by
  induction os generalizing found r with
  | nil => simp
  | cons o os ih =>
      rw [compileOccurrences] at ran
      simp only [Bind.bind, EStateM.bind] at ran
      split at ran
      · next outcome middle first =>
        refine List.forall_mem_cons.2 ⟨?_, ih ran⟩
        cases tried : l.skips o.literal with
        | true => exact .inl tried
        | false =>
            cases cut : tokenize o.literal with
            | ok tokens => exact .inr ⟨tokens, cut⟩
            | error cause =>
                rw [compileOccurrence_of_lexical tried cut] at first
                cases first
      · cases ran

/-- **Only split characters stop the lexer, and with it a batch.**  Every other text has tokens,
and each is the slice of the text at its span, on boundaries of characters.  A batch for which
loading defaults ends is compiled to the end unless one of its literals splits a character and is
not skipped for its leading name. -/
theorem stops_iff_splitsCharacter (text : String) (l : Loader) (os : List Occurrence)
    (r : Registry) :
    ((∃ tokens, tokenize text = .ok tokens ∧ ∀ t ∈ tokens, t.span.slice? text = some t.text) ↔
        ¬ SplitsCharacter text.toList) ∧
      ((∀ o ∈ os, l.Ends r o.literal) → ((∃ report r', compileBatch l os r = .ok report r') ↔
        ∀ o ∈ os, l.skips o.literal = true ∨ ¬ SplitsCharacter o.literal.toList)) := by
  refine ⟨?_, ?_⟩
  · rw [← exists_tokenize_iff]
    constructor
    · rintro ⟨tokens, cut, -⟩
      exact ⟨tokens, cut⟩
    · rintro ⟨tokens, cut⟩
      have tiled : Tiled 0 text.toList tokens := tokensFrom_iff_tiled.1 cut
      exact ⟨tokens, cut, tiled.slices (show text.toList = [] ++ text.toList from rfl) rfl⟩
  · intro ends
    simp only [← compiles_iff]
    constructor
    · rintro ⟨report, r', ran⟩
      simp only [compileBatch, Bind.bind, EStateM.bind] at ran
      split at ran
      · next outcomes r'' inner => exact compiles_of_compileOccurrences inner
      · cases ran
    · intro compiles
      obtain ⟨outcomes, r', ran, -⟩ := exists_outcomes compiles ends
      exact ⟨_, r', compileBatch_of_outcomes ran⟩

/-- A literal of a known interface that splits a character stops a batch.  Behind the name of no
interface the same number is skipped, and stops nothing. -/
theorem stops_of_wideSuffix :
    let l := sampleIndex.loader ⟨0⟩
    let written (literal : String) : Occurrence := ⟨"p.C", "C.java", 1, .wholeClass, literal⟩
    (¬ ∃ report r', compileBatch l [written "@Point(1Lé)"] .empty = .ok report r')
    ∧ ∃ report r', compileBatch l [written "@Nothing(1Lé)", written "@Point(unit = Unit.CM)"] .empty
      = .ok report r' := by
  intro l written
  have ends : l.DefaultsEnd := defaultsEnd_of_ofSchema ofSchema_sampleSchema ⟨0⟩
  have stops := fun os => (stops_iff_splitsCharacter "1Lé" l os .empty).2
    fun o _ => ends.ends .empty o.literal
  constructor
  · have splits : SplitsCharacter (written "@Point(1Lé)").literal.toList := by
      by_contra whole
      obtain ⟨tokens, cut⟩ := exists_tokenize_iff.2 whole
      have failed : (tokenize (written "@Point(1Lé)").literal).isOk = false := by decide +kernel
      rw [cut] at failed
      cases failed
    rw [stops]
    intro all
    rcases all _ List.mem_cons_self with skipped | whole
    · exact absurd skipped (by decide +kernel)
    · exact whole splits
  · refine (stops _).2 (List.forall_mem_cons.2 ⟨.inl (by decide +kernel), ?_⟩)
    have lexed : (tokenize (written "@Point(unit = Unit.CM)").literal).isOk = true := by
      decide +kernel
    exact List.forall_mem_singleton.2
      (.inr (exists_tokenize_iff.1 (exists_tokens_of_isOk lexed)))

-- one byte behind the suffix is cut off well, and so is a wide character within a name
example : (tokenize "1Lé").isOk = false ∧ (tokenize "1Le").isOk = true ∧
    (tokenize "1Lée").isOk = true ∧ (tokenize "Lé").isOk = true := by
  decide +kernel

end DocAnnotations
