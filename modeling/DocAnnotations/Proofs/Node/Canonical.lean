import DocAnnotations.Proofs.Node.Derivation
import DocAnnotations.Proofs.Node.Written

/-!
# Canonical texts are read back

The canonical text of a tree is made of the words of the tree, and of marks with the blanks that
belong to them.

**Words of a derivation.**  Words in a derivation have marks as neighbours (`inductive_keepsApart`),
so the words of a text that was read are lexemes: each would be cut the same way by itself.

**Writing a derivation.**  So a derivation is followed rule by rule to write the canonical text
(`inductive_written`), with the same nesting.

**`parse_render`**: the canonical text of a tree that was read from any text is read as the same
tree up to places; so it is its own canonical text, and resolves to the same value or the same error
up to places.
-/

namespace DocAnnotations

open Grammar Text

/-! ## Words of a derivation -/

/-- What may stand behind a part of a tree: the next token is a mark. -/
structure BeginsMarked (rest : List Token) : Prop where
  apart : WordsApart rest
  mark : ∀ t ∈ rest.head?, t.kind.isMark = true

section

variable {t : Token} {rest : List Token}

/-- A mark may stand in front of anything. -/
lemma wordsApart_mark (mark : t.kind.isWord = false) (apart : WordsApart rest) :
    WordsApart (t :: rest) :=
  List.isChain_cons.2 ⟨fun _ _ word => absurd word (by rw [mark]; decide), apart⟩

/-- A word stands apart from what follows if a mark does. -/
lemma wordsApart_word (begins : BeginsMarked rest) : WordsApart (t :: rest) :=
  List.isChain_cons.2 ⟨fun u head _ => begins.mark u head, begins.apart⟩

/-- Tokens behind a mark are apart if they are so without the mark. -/
lemma BeginsMarked.cons (mark : t.kind.isMark = true) (apart : WordsApart rest) :
    BeginsMarked (t :: rest) where
  apart := wordsApart_mark (by cases h : t.kind <;> rw [h] at mark <;> first | rfl | cases mark)
    apart
  mark := fun u head => by
    cases Option.mem_some.1 head
    exact mark

/-- Before a mark, no word among the tokens has a word behind it. -/
def KeepsApart (ts : List Token) : Prop := ∀ rest, BeginsMarked rest → WordsApart (ts ++ rest)

/-- If each item of a list keeps its words apart, so does the list, as commas stand between the
items. -/
lemma KeepsApart.of_separated {α : Type} {Item : List Token → α → Nat → Prop}
    (each : ∀ {ts x depth}, Item ts x depth → KeepsApart ts) {ts : List Token} {xs : List α}
    {depth : Nat} (items : Separated Item ts xs depth) : KeepsApart ts := by
  induction items with
  | last item => exact each item
  | more item mark items ih =>
      intro rest begins
      rw [List.append_assoc, List.cons_append]
      exact each item _ (.cons (by rw [mark]; rfl) (ih rest begins))

/-- Behind a word, in delimiters. -/
lemma KeepsApart.enclosed {name opened closed : Token} {ts : List Token} (h : KeepsApart ts)
    (left : opened.kind.isMark = true) (right : closed.kind.isMark = true) :
    KeepsApart (name :: opened :: ts ++ [closed]) := by
  intro rest begins
  simp only [List.cons_append, List.append_assoc]
  exact wordsApart_word (.cons left (h _ (.cons right begins.apart)))

/-- **In a derivation no word has a word behind it.** -/
theorem inductive_keepsApart : Inductive (fun ts _ _ => KeepsApart ts)
    (fun ts _ _ => KeepsApart ts) fun ts _ _ => KeepsApart ts where
  literal _ _ begins := wordsApart_word begins
  emptyArray left right _ begins :=
    wordsApart_mark (by rw [left]; rfl) (wordsApart_mark (by rw [right]; rfl) begins.apart)
  array left items right rest begins := by
    rw [List.append_assoc, List.cons_append]
    exact wordsApart_mark (by rw [left]; rfl)
      (KeepsApart.of_separated And.right items _ (.cons (by rw [right]; rfl) begins.apart))
  nested mark _ inner rest begins := wordsApart_mark (by rw [mark]; rfl) (inner rest begins)
  pair _ mark _ value rest begins :=
    wordsApart_word (.cons (by rw [mark]; rfl) (value rest begins))
  bare _ _ begins := wordsApart_word begins
  empty _ left right _ begins :=
    wordsApart_word (.cons (by rw [left]; rfl)
      (wordsApart_mark (by rw [right]; rfl) begins.apart))
  pairs _ left items right :=
    (KeepsApart.of_separated And.right items).enclosed (by rw [left]; rfl) (by rw [right]; rfl)
  lone _ left _ value right := value.enclosed (by rw [left]; rfl) (by rw [right]; rfl)

end

/-! ## Writing a derivation -/

/-- The names and literals among the tokens are lexemes. -/
def HasLexemes (tokens : List Token) : Prop :=
  ∀ t ∈ tokens, t.kind.isWord = true → IsLexeme t.kind t.text.toList

/-- Some of the tokens have lexemes if all have. -/
lemma HasLexemes.mono {ts us : List Token} (h : HasLexemes us) (sub : ts ⊆ us) : HasLexemes ts :=
  fun t mem => h t (sub mem)

/-- The lexemes of a text of which all tokens are derived. -/
lemma hasLexemes_of_tokenize {text : String} {ts : List Token} {closing : Token}
    (cut : tokenize text = .ok (ts ++ [closing])) (final : closing.kind = .endOfInput)
    (apart : KeepsApart ts) : HasLexemes ts :=
  fun t mem => isLexeme_of_tokensFrom cut
    (apart _ (.cons (by rw [final]; rfl) (List.isChain_nil))) t (List.mem_append_left _ mem)

/-- The canonical text of a pair. -/
def PairNode.chars (p : PairNode) : List Char := p.name.toList ++ " = ".toList ++ p.value.chars

/-- The canonical text of an annotation. -/
def AnnotationNode.chars (a : AnnotationNode) : List Char :=
  annotationChars a.name (pairsChars a.pairs)

lemma valuesChars_eq (ns : List Node) : valuesChars ns = ns.map Node.chars := by
  induction ns with
  | nil => rfl
  | cons n ns ih => rw [valuesChars, ih, List.map_cons]

lemma pairsChars_eq (ps : List PairNode) : pairsChars ps = ps.map PairNode.chars := by
  induction ps with
  | nil => rfl
  | cons p ps ih =>
      obtain ⟨name, value, span⟩ := p
      rw [pairsChars, ih, List.map_cons, PairNode.chars]

lemma Node.chars_nested (a : AnnotationNode) : (Node.nested a).chars = '@' :: a.chars := by
  obtain ⟨name, pairs, span⟩ := a
  rw [Node.chars, AnnotationNode.chars]

section

lemma ne_nil_of_separated {α : Type} {Item : List Token → α → Nat → Prop} {ts : List Token}
    {xs : List α} {depth : Nat} (items : Separated Item ts xs depth) : xs ≠ [] :=
  List.ne_nil_of_length_pos (Parse.length_pos_of_separated items)

/-- The name of a lone value. -/
lemma isLexeme_value : IsLexeme .identifier "value".toList :=
  ⟨'v', ['a', 'l', 'u', 'e'], by decide, by decide, by decide, by rfl⟩

/-- The text of each name among the tokens is a lexeme. -/
lemma isLexeme_name {ts : List Token} {t : Token} (lexemes : HasLexemes ts) (mem : t ∈ ts)
    (named : t.kind = .identifier) : IsLexeme .identifier t.text.toList :=
  named ▸ lexemes t mem (by rw [named]; rfl)

/-- What may be written within some levels may be written within more. -/
lemma written_of_separated {α : Type} {Item : List Token → α → Nat → Prop}
    (Written : α → Nat → Prop) (mono : ∀ {x k l}, Written x k → k ≤ l → Written x l)
    (each : ∀ {ts x depth}, Item ts x depth → HasLexemes ts → Written x depth) {ts : List Token}
    {xs : List α} {depth : Nat} (items : Separated Item ts xs depth) (lexemes : HasLexemes ts) :
    ∀ x ∈ xs, Written x depth := by
  induction items with
  | last item => exact List.forall_mem_singleton.2 (each item lexemes)
  | more item mark items ih =>
      refine List.forall_mem_cons.2 ⟨?_, fun x mem => ?_⟩
      · exact mono (each item (lexemes.mono (by simp))) (Nat.le_max_left _ _)
      · exact mono (ih (lexemes.mono (by simp)) x mem) (Nat.le_max_right _ _)

/-- An annotation with pairs in its parentheses. -/
lemma writtenAnnotation_of_pairs {name opened closed : Token} {ts : List Token}
    {ps : List PairNode} {depth : Nat} {span : Span} (named : name.kind = .identifier)
    (lexemes : HasLexemes (name :: opened :: ts ++ [closed])) (some : ps ≠ [])
    (each : ∀ p ∈ ps, WrittenPair p.chars p.unspanned depth) :
    WrittenAnnotation (AnnotationNode.chars ⟨name.text, ps, span⟩)
      (AnnotationNode.unspanned ⟨name.text, ps, span⟩) (depth + 1) := by
  have whole := writtenAnnotation_pairs (isLexeme_name lexemes (by simp) named)
    (written_separated _ some each)
  have pairs : (ps.map PairNode.chars).isEmpty = false := by
    simpa using some
  rwa [AnnotationNode.chars, annotationChars, pairsChars_eq, pairs,
    AnnotationNode.unspanned, unspannedPairs_eq]

/-- **What is derived, with its lexemes, is written by its canonical text.**  A lone value is
written as a pair. -/
theorem inductive_written : Inductive
    (fun ts n depth => HasLexemes ts → WrittenValue n.chars n.unspanned depth)
    (fun ts p depth => HasLexemes ts → WrittenPair p.chars p.unspanned depth)
    fun ts a depth => HasLexemes ts → WrittenAnnotation a.chars a.unspanned depth where
  literal {t _} raw lexemes := by
    have word := lexemes t List.mem_cons_self (by rw [TokenKind.isWord, raw]; rfl)
    have written : WrittenValue _ _ 0 := writtenValue_literal raw word
    rwa [String.ofList_toList] at written
  emptyArray _ _ _ := writtenValue_emptyArray
  array _ items _ lexemes := by
    have each := written_of_separated (fun n : Node => WrittenValue n.chars n.unspanned)
      Written.mono And.right items (lexemes.mono (by simp))
    have whole := writtenValue_array (written_separated _ (ne_nil_of_separated items) each)
    rwa [← valuesChars_eq, ← unspannedValues_eq] at whole
  nested _ _ inner lexemes := by
    rw [Node.chars_nested, Node.unspanned_nested]
    exact writtenValue_nested (inner (lexemes.mono (by simp)))
  pair named _ _ value lexemes :=
    writtenPair (isLexeme_name lexemes (by simp) named) isMarkText_equals.blankBefore.blankAfter
      (value (lexemes.mono (by simp)))
  bare named lexemes := writtenAnnotation_bare (isLexeme_name lexemes (by simp) named)
  empty named _ _ lexemes := writtenAnnotation_bare (isLexeme_name lexemes (by simp) named)
  pairs named _ items _ lexemes :=
    writtenAnnotation_of_pairs named lexemes (ne_nil_of_separated items)
      (written_of_separated (fun p : PairNode => WrittenPair p.chars p.unspanned) Written.mono
        And.right items (lexemes.mono fun t mem => by simp [mem]))
  lone named _ _ value _ lexemes := by
    refine writtenAnnotation_of_pairs named lexemes (by simp) (List.forall_mem_singleton.2 ?_)
    exact writtenPair isLexeme_value isMarkText_equals.blankBefore.blankAfter
      (value (lexemes.mono fun t mem => by simp [mem]))

end

/-! ## The main statement -/

variable {text : String}

/-- An annotation that was parsed is written, without its places, as one that the grammar has. -/
lemma written_of_parse {a : AnnotationNode} (h : AnnotationNode.parse text = .ok a) :
    WrittenAnnotation a.chars a.unspanned maxNesting := by
  obtain ⟨_, depth, cut, derived, few⟩ := annotation_parse_iff.1 h
  cases derived with
  | plain inner final =>
      exact (inductive_written.of_annotated inner
        (hasLexemes_of_tokenize cut final (inductive_keepsApart.of_annotated inner))).mono few
  | @marked sign ts closing _ _ mark inner final =>
      have lexemes : HasLexemes (sign :: ts) := hasLexemes_of_tokenize cut final fun _ begins =>
        wordsApart_mark (by rw [mark]; rfl) (inductive_keepsApart.of_annotated inner _ begins)
      exact (inductive_written.of_annotated inner (lexemes.mono (by simp))).mono few

/-- A value that was parsed is written, without its places, as one that the grammar has. -/
lemma writtenValue_of_parse {n : Node} (h : Node.parse text = .ok n) :
    WrittenValue n.chars n.unspanned maxNesting := by
  obtain ⟨_, depth, cut, ⟨inner, final⟩, few⟩ := node_parse_iff.1 h
  exact (inductive_written.of_value inner
    (hasLexemes_of_tokenize cut final (inductive_keepsApart.of_value inner))).mono few

/-- Literals that are read as the same tree up to places compile alike. -/
lemma compileLiteral_of_unspanned {other : String} {a b : AnnotationNode}
    (h : AnnotationNode.parse text = .ok a) (h' : AnnotationNode.parse other = .ok b)
    (same : b.unspanned = a.unspanned) (l : Loader) :
    EStateM.adaptExcept CompileError.unplaced (compileLiteral l other)
      = EStateM.adaptExcept CompileError.unplaced (compileLiteral l text) := by
  have alike : Alike (resolveRoot l b) (resolveRoot l a) :=
    (resolveRoot_unspanned l b).trans (same ▸ (resolveRoot_unspanned l a).symm)
  have commute : ∀ x : Resolve (Option Annotation),
      EStateM.adaptExcept CompileError.unplaced (EStateM.adaptExcept CompileError.resolve x)
        = EStateM.adaptExcept CompileError.resolve
          (EStateM.adaptExcept ResolveError.unplaced x) := by
    intro x
    funext r
    simp only [EStateM.adaptExcept]
    cases x r <;> rfl
  rw [compileLiteral, compileLiteral, h, h']
  exact (commute _).trans ((congrArg _ alike).trans (commute _).symm)

/-- **Printing and reading agree.**  The canonical text of any tree that was read is read as this
tree up to places, has the same canonical text, and has the same meaning up to places. -/
theorem parse_render (text : String) :
    (∀ a, AnnotationNode.parse text = .ok a → ∃ b, AnnotationNode.parse a.render = .ok b ∧
      b.unspanned = a.unspanned ∧ b.render = a.render ∧
      ∀ l, EStateM.adaptExcept CompileError.unplaced (compileLiteral l a.render)
        = EStateM.adaptExcept CompileError.unplaced (compileLiteral l text)) ∧
    (∀ n, Node.parse text = .ok n → ∃ m, Node.parse n.render = .ok m ∧
      m.unspanned = n.unspanned ∧ m.render = n.render ∧
      ∀ l interface element expected, Alike (resolveValue l interface element m expected)
        (resolveValue l interface element n expected)) := by
  constructor
  · intro a parsed
    obtain ⟨b, reread, same⟩ := exists_parse_of_writtenAnnotation (written_of_parse parsed)
    exact ⟨b, reread, same, by rw [← b.render_unspanned, same, a.render_unspanned],
      compileLiteral_of_unspanned parsed reread same⟩
  · intro n parsed
    obtain ⟨m, reread, same⟩ := exists_parse_of_writtenValue (writtenValue_of_parse parsed)
    refine ⟨m, reread, same, by rw [← m.render_unspanned, same, n.render_unspanned], ?_⟩
    intro l interface element expected
    exact (resolveValue_unspanned l interface element m expected).trans
      (same ▸ (resolveValue_unspanned l interface element n expected).symm)

/-- The tree of a text whose canonical text is known. -/
lemma exists_of_map_toOption {ε α β : Type} {x : Except ε α} {f : α → β} {b : β}
    (h : x.toOption.map f = some b) : ∃ a, x = .ok a ∧ f a = b := by
  cases x with
  | error e => cases h
  | ok a => exact ⟨a, rfl, Option.some.inj h⟩

/-- A lone value in parentheses gets its name, and empty parentheses are left out. -/
theorem parse_render_array :
    (∃ a b, AnnotationNode.parse "@A( \x7b1,\n -.5f\x7d )" = .ok a ∧
      AnnotationNode.parse "A(value = \x7b1, -.5f\x7d)" = .ok b ∧ b.unspanned = a.unspanned) ∧
    (∃ n m, Node.parse "\x7b @A( ) \x7d" = .ok n ∧ Node.parse "\x7b@A\x7d" = .ok m ∧
      m.unspanned = n.unspanned) := by
  constructor
  · obtain ⟨a, parsed, canonical⟩ := exists_of_map_toOption
      (x := AnnotationNode.parse "@A( \x7b1,\n -.5f\x7d )") (f := AnnotationNode.render)
      (b := "A(value = \x7b1, -.5f\x7d)") (by decide +kernel)
    obtain ⟨b, reread, same, -⟩ := (parse_render "@A( \x7b1,\n -.5f\x7d )").1 a parsed
    exact ⟨a, b, parsed, canonical ▸ reread, same⟩
  · obtain ⟨n, parsed, canonical⟩ := exists_of_map_toOption
      (x := Node.parse "\x7b @A( ) \x7d") (f := Node.render) (b := "\x7b@A\x7d") (by decide +kernel)
    obtain ⟨m, reread, same, -⟩ := (parse_render "\x7b @A( ) \x7d").2 n parsed
    exact ⟨n, m, parsed, canonical ▸ reread, same⟩

end DocAnnotations
