import DocAnnotations.Proofs.Node.Grammar
import DocAnnotations.Proofs.Node.Unspanned

/-!
# Texts written from trees

A text is `Written` for a tree when, wherever it stands, it is cut into tokens from which this tree
is derived, up to places.

**Marks.**  Punctuation is written with blanks on one side or on none, and is the same mark each
time (`IsMarkText`).  Nothing needs to be known about what stands next to it.

**Parts of trees.**  The lemmas give a text for each rule of the grammar from texts for its parts.
Words may stand next to marks only, and this is how the rules have them.

**Whole texts.**  So **what is written for a tree is read as this tree**
(`exists_parse_of_writtenAnnotation`, `exists_parse_of_writtenValue`).
-/

namespace DocAnnotations

open Grammar Text

/-! ## Marks -/

section

variable {kind : TokenKind} {cs : List Char}

/-- The characters are cut into a single mark of the given kind, whatever follows, and end a word
that they follow. -/
structure IsMarkText (kind : TokenKind) (cs : List Char) : Prop where
  stops : ∀ rest, Stops (cs ++ rest)
  lexes : ∀ offset, ∃ t stop, t.kind = kind ∧ Lexes Anything offset cs [t] stop

lemma isMarkText_char {c : Char} (stop : isNameChar c = false) (inked : isBlank c = false)
    (scan : ∀ offset cs, scanToken offset c cs = .ok (kind, 0)) : IsMarkText kind [c] where
  stops := fun _ => stops_cons.2 stop
  lexes := fun offset => ⟨_, _, rfl, lexes_mark inked scan offset⟩

lemma IsMarkText.blankAfter (h : IsMarkText kind cs) : IsMarkText kind (cs ++ [' ']) where
  stops := fun rest => by
    rw [List.append_assoc]
    exact h.stops _
  lexes := fun offset => by
    obtain ⟨t, stop, same, lexes⟩ := h.lexes offset
    exact ⟨t, _, same, lexes.then (lexes_blank stop)⟩

lemma IsMarkText.blankBefore (h : IsMarkText kind cs) : IsMarkText kind (' ' :: cs) where
  stops := fun _ => stops_cons.2 (by decide)
  lexes := fun offset => by
    obtain ⟨t, stop, same, lexes⟩ := h.lexes (offset + 1)
    exact ⟨t, stop, same, (lexes_blank offset).then lexes⟩

lemma isMarkText_comma : IsMarkText .comma [',', ' '] :=
  (isMarkText_char (c := ',') (by decide) (by decide) fun _ _ => rfl).blankAfter

lemma isMarkText_equals : IsMarkText .equals ['='] :=
  isMarkText_char (by decide) (by decide) fun _ _ => rfl

lemma isMarkText_leftParen : IsMarkText .leftParen ['('] :=
  isMarkText_char (by decide) (by decide) fun _ _ => rfl

lemma isMarkText_rightParen : IsMarkText .rightParen [')'] :=
  isMarkText_char (by decide) (by decide) fun _ _ => rfl

lemma isMarkText_leftBrace : IsMarkText .leftBrace ['{'] :=
  isMarkText_char (by decide) (by decide) fun _ _ => rfl

lemma isMarkText_rightBrace : IsMarkText .rightBrace ['}'] :=
  isMarkText_char (by decide) (by decide) fun _ _ => rfl

lemma isMarkText_atSign : IsMarkText .atSign ['@'] :=
  isMarkText_char (by decide) (by decide) fun _ _ => rfl

end

/-! ## Parts of trees -/

/-- Before whatever ends a word, the characters are cut into tokens from which a tree is derived
with at most `room` levels; the tree without its places is `x`. -/
def Written {α : Type} (Part : List Token → α → Nat → Prop) (unspanned : α → α) (cs : List Char)
    (x : α) (room : Nat) : Prop :=
  ∀ offset, ∃ ts a depth stop, Part ts a depth ∧ depth ≤ room ∧ unspanned a = x ∧
    Lexes Stops offset cs ts stop

/-- The characters are written for a value. -/
abbrev WrittenValue : List Char → Node → Nat → Prop := Written IsValue Node.unspanned

/-- The characters are written for a pair. -/
abbrev WrittenPair : List Char → PairNode → Nat → Prop := Written IsPair PairNode.unspanned

/-- The characters are written for an annotation. -/
abbrev WrittenAnnotation : List Char → AnnotationNode → Nat → Prop :=
  Written IsAnnotation AnnotationNode.unspanned

variable {α : Type} {Item : List Token → α → Nat → Prop} {unspanned : α → α} {room : Nat}
  {cs w mark : List Char} {name : String}

/-- What is written within some room is written within more. -/
lemma Written.mono {x : α} {more : Nat} (h : Written Item unspanned cs x room)
    (le : room ≤ more) : Written Item unspanned cs x more := by
  intro offset
  obtain ⟨ts, a, depth, stop, derived, few, same, lexes⟩ := h offset
  exact ⟨ts, a, depth, stop, derived, few.trans le, same, lexes⟩

/-- The text of a literal is one lexeme, so that it is written wherever it may end. -/
lemma writtenValue_literal {kind : TokenKind} {raw : LiteralKind}
    (literal : kind.literalKind? = some raw) (word : IsLexeme kind w) :
    WrittenValue w (.literal raw (String.ofList w) {}) room := fun offset =>
  ⟨_, _, 0, _, .literal literal, Nat.zero_le _, rfl, lexes_word word offset⟩

/-- One or more items with commas and blanks between them. -/
lemma written_separated {ι : Type} {text : ι → List Char} {tree : ι → α} :
    ∀ is : List ι, is ≠ [] → (∀ i ∈ is, Written Item unspanned (text i) (tree i) room) →
      Written (Separated Item) (List.map unspanned) (commaSeparated (is.map text)) (is.map tree)
        room
  | [i], _, items => by
      intro offset
      obtain ⟨ts, a, depth, stop, derived, few, same, lexes⟩ := items i List.mem_cons_self offset
      refine ⟨ts, [a], depth, stop, .last derived, few, by rw [List.map_singleton, same]; rfl, ?_⟩
      simpa [commaSeparated] using lexes
  | i :: j :: is, _, items => by
      intro offset
      obtain ⟨first, others⟩ := List.forall_mem_cons.1 items
      obtain ⟨ts, a, depth, stop, derived, few, same, lexes⟩ := first offset
      obtain ⟨comma, stop₂, isComma, lexes₂⟩ := isMarkText_comma.lexes stop
      obtain ⟨ts₃, as, deep, stop₃, derived₃, few₃, same₃, lexes₃⟩ :=
        written_separated (j :: is) (by simp) others stop₂
      refine ⟨ts ++ comma :: ts₃, a :: as, max depth deep, stop₃, .more derived isComma derived₃,
        max_le few few₃, by rw [List.map_cons, List.map_cons, same, same₃], ?_⟩
      have split : commaSeparated ((i :: j :: is).map text)
          = text i ++ ([',', ' '] ++ commaSeparated ((j :: is).map text)) := by
        simp [commaSeparated, List.intercalate]
      rw [split]
      exact lexes.append (lexes₂.then lexes₃) fun rest _ => by
        rw [List.append_assoc]
        exact isMarkText_comma.stops _

lemma lexes_nothing (offset : Nat) : Lexes Stops offset [] [] offset := fun _ _ _ next => next

/-- Words behind a mark and before another one. -/
lemma lexes_enclosed {left right : List Char} {closing : TokenKind} {offset middle stop : Nat}
    {opened : Token} {ts : List Token} (isRight : IsMarkText closing right)
    (first : Lexes Anything offset left [opened] middle) (inner : Lexes Stops middle cs ts stop) :
    ∃ closed last, closed.kind = closing ∧
      Lexes Stops offset (left ++ (cs ++ right)) (opened :: ts ++ [closed]) last := by
  obtain ⟨closed, last, kind, lexes⟩ := isRight.lexes stop
  refine ⟨closed, last, kind, ?_⟩
  have both := first.then (inner.append lexes fun rest _ => isRight.stops rest)
  exact fun rest us _ next => both rest us trivial next

/-- An array of at least one value. -/
lemma writtenValue_array {ns : List Node}
    (items : Written (Separated IsValue) (List.map Node.unspanned) cs ns room) :
    WrittenValue ('{' :: cs ++ ['}']) (.array ns {}) (room + 1) := by
  intro offset
  obtain ⟨opened, stop, left, lexes⟩ := isMarkText_leftBrace.lexes offset
  obtain ⟨ts, as, depth, stop₂, derived, few, same, lexes₂⟩ := items stop
  obtain ⟨closed, last, right, all⟩ := lexes_enclosed
    isMarkText_rightBrace lexes lexes₂
  exact ⟨_, _, depth + 1, last, .array left derived right, Nat.succ_le_succ few,
    by rw [Node.unspanned, unspannedValues_eq, same], all⟩

/-- An array without values is written as its two braces. -/
lemma writtenValue_emptyArray : WrittenValue ['{', '}'] (.array [] {}) (room + 1) := by
  intro offset
  obtain ⟨opened, stop, left, lexes⟩ := isMarkText_leftBrace.lexes offset
  obtain ⟨closed, last, right, all⟩ :=
    lexes_enclosed isMarkText_rightBrace lexes (lexes_nothing stop)
  exact ⟨_, _, 1, last, .emptyArray left right, Nat.succ_le_succ (Nat.zero_le _), rfl, all⟩

/-- An annotation as a value. -/
lemma writtenValue_nested {a : AnnotationNode} (inner : WrittenAnnotation cs a room) :
    WrittenValue ('@' :: cs) (.nested a) (room + 1) := by
  intro offset
  obtain ⟨sign, stop, mark, lexes⟩ := isMarkText_atSign.lexes offset
  obtain ⟨ts, b, depth, stop₂, derived, few, same, lexes₂⟩ := inner stop
  exact ⟨_, _, depth + 1, stop₂, .nested mark derived, Nat.succ_le_succ few,
    by rw [Node.unspanned_nested, AnnotationNode.unspanned_withSpan, same], lexes.then lexes₂⟩

/-- A name becomes one token. -/
lemma exists_lexes_name (named : IsLexeme .identifier name.toList) (offset : Nat) :
    ∃ t stop, t.kind = .identifier ∧ t.text = name ∧
      Lexes Stops offset name.toList [t] stop :=
  ⟨_, _, rfl, String.ofList_toList, lexes_word named offset⟩

/-- A pair, with or without blanks around the mark. -/
lemma writtenPair {n : Node} (named : IsLexeme .identifier name.toList)
    (isMark : IsMarkText .equals mark) (value : WrittenValue cs n room) :
    WrittenPair (name.toList ++ mark ++ cs) ⟨name, n, {}⟩ room := by
  intro offset
  obtain ⟨t, middle, kind, rfl, lexes⟩ := exists_lexes_name named offset
  obtain ⟨sign, stop, equals, lexes₂⟩ := isMark.lexes middle
  obtain ⟨ts, a, depth, stop₃, derived, few, same, lexes₃⟩ := value stop
  refine ⟨_, _, depth, stop₃, .pair kind equals derived, few, by rw [PairNode.unspanned, same], ?_⟩
  rw [List.append_assoc]
  exact lexes.append (lexes₂.then lexes₃) fun rest _ => by
    rw [List.append_assoc]
    exact isMark.stops _

/-- An annotation without parentheses. -/
lemma writtenAnnotation_bare (named : IsLexeme .identifier name.toList) :
    WrittenAnnotation name.toList ⟨name, [], {}⟩ room := by
  intro offset
  obtain ⟨t, stop, kind, rfl, lexes⟩ := exists_lexes_name named offset
  exact ⟨_, _, 0, stop, .bare kind, Nat.zero_le _, rfl, lexes⟩

/-- A name before what stops it. -/
lemma Lexes.called {offset middle stop : Nat} {t : Token} {ts : List Token}
    (first : Lexes Stops offset w [t] middle) (second : Lexes Stops middle ('(' :: cs) ts stop) :
    Lexes Stops offset (w ++ '(' :: cs) (t :: ts) stop :=
  first.before (by decide) second

/-- An annotation with parentheses and nothing in them. -/
lemma writtenAnnotation_empty (named : IsLexeme .identifier name.toList) :
    WrittenAnnotation (name.toList ++ ['(', ')']) ⟨name, [], {}⟩ (room + 1) := by
  intro offset
  obtain ⟨t, middle, kind, rfl, lexes⟩ := exists_lexes_name named offset
  obtain ⟨opened, stop, left, lexes₂⟩ := isMarkText_leftParen.lexes middle
  obtain ⟨closed, last, right, all⟩ :=
    lexes_enclosed isMarkText_rightParen lexes₂ (lexes_nothing stop)
  exact ⟨_, _, 1, last, .empty kind left right, Nat.succ_le_succ (Nat.zero_le _), rfl,
    lexes.called all⟩

/-- An annotation with pairs. -/
lemma writtenAnnotation_pairs {ps : List PairNode} (named : IsLexeme .identifier name.toList)
    (items : Written (Separated IsPair) (List.map PairNode.unspanned) cs ps room) :
    WrittenAnnotation (name.toList ++ '(' :: cs ++ [')']) ⟨name, ps, {}⟩ (room + 1) := by
  intro offset
  obtain ⟨t, middle, kind, rfl, lexes⟩ := exists_lexes_name named offset
  obtain ⟨opened, stop, left, lexes₂⟩ := isMarkText_leftParen.lexes middle
  obtain ⟨ts, as, depth, stop₃, derived, few, same, lexes₃⟩ := items stop
  obtain ⟨closed, last, right, all⟩ := lexes_enclosed isMarkText_rightParen lexes₂ lexes₃
  refine ⟨_, _, depth + 1, last, .arguments kind left (.pairs derived) right,
    Nat.succ_le_succ few, by rw [AnnotationNode.unspanned, unspannedPairs_eq, same], ?_⟩
  rw [List.append_assoc]
  exact lexes.called all

/-! ## Whole texts -/

/-- **What is written for a value is read as this value.** -/
theorem exists_parse_of_writtenValue {n : Node} (h : WrittenValue cs n maxNesting) :
    ∃ m, Node.parse (String.ofList cs) = .ok m ∧ m.unspanned = n := by
  obtain ⟨ts, m, depth, stop, derived, few, same, lexes⟩ := h 0
  exact ⟨m, node_parse_iff.2 ⟨_, depth, tokenize_of_lexes lexes stops_nil, .value derived rfl, few⟩,
    same⟩

/-- **What is written for an annotation is read as this annotation.** -/
theorem exists_parse_of_writtenAnnotation {a : AnnotationNode}
    (h : WrittenAnnotation cs a maxNesting) :
    ∃ b, AnnotationNode.parse (String.ofList cs) = .ok b ∧ b.unspanned = a := by
  obtain ⟨ts, b, depth, stop, derived, few, same, lexes⟩ := h 0
  exact ⟨b, annotation_parse_iff.2 ⟨_, depth, tokenize_of_lexes lexes stops_nil,
    .plain derived rfl, few⟩, same⟩

/-- An `@` may stand in front of a whole annotation. -/
lemma exists_root_of_marked {a : AnnotationNode} (h : WrittenAnnotation cs a room) :
    ∃ ts b depth, tokenize (String.ofList ('@' :: cs)) = .ok ts ∧ IsRoot ts b depth ∧
      b.unspanned = a := by
  obtain ⟨sign, middle, mark, first⟩ := isMarkText_atSign.lexes 0
  obtain ⟨ts, b, depth, stop, derived, -, same, lexes⟩ := h middle
  exact ⟨_, b, depth, tokenize_of_lexes (first.then lexes) stops_nil, .marked mark derived rfl,
    same⟩

end DocAnnotations
