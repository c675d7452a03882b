import DocAnnotations.Proofs.Node.Derivation
import DocAnnotations.Proofs.Node.Grammar

/-!
# Derivations with other spans

Spans are only passed on and joined by the grammar.

**Changing spans.**  `Node.respan f` changes all spans of a tree by `f`, and `Token.respan f` that
of a token.  Where `f` keeps joins, a derivation from the changed tokens gives the changed tree
(`isValue_respan`).

**Uniqueness.**  Tokens have one tree at most, at whatever depth (`isValue_unique`), because the
parser is a function and accepts all derivations.

**Moving spans.**  Spans that are moved, forth and back, are such a change.  That is how a slice of
a text, read by itself, has the tree that it has in the text, moved to the front.
-/

namespace DocAnnotations

/-! ## Changing spans -/

/-- The token with its span changed. -/
def Token.respan (f : Span → Span) (t : Token) : Token := { t with span := f t.span }

mutual

/-- The value with all spans changed. -/
def Node.respan (f : Span → Span) : Node → Node
  | .literal kind text span => .literal kind text (f span)
  | .array elements span => .array (respanValues f elements) (f span)
  | .nested ⟨name, pairs, span⟩ => .nested ⟨name, respanPairs f pairs, f span⟩

/-- Several values with all spans changed. -/
def respanValues (f : Span → Span) : List Node → List Node
  | [] => []
  | n :: ns => n.respan f :: respanValues f ns

/-- Several pairs with all spans changed. -/
def respanPairs (f : Span → Span) : List PairNode → List PairNode
  | [] => []
  | ⟨name, value, span⟩ :: ps => ⟨name, value.respan f, f span⟩ :: respanPairs f ps

end

/-- The pair with all spans changed. -/
def PairNode.respan (f : Span → Span) (p : PairNode) : PairNode :=
  ⟨p.name, p.value.respan f, f p.span⟩

/-- The annotation with all spans changed. -/
def AnnotationNode.respan (f : Span → Span) (a : AnnotationNode) : AnnotationNode :=
  ⟨a.name, respanPairs f a.pairs, f a.span⟩

variable {f : Span → Span}

lemma respanValues_eq (ns : List Node) : respanValues f ns = ns.map (Node.respan f) := by
  induction ns with
  | nil => rfl
  | cons n ns ih => rw [respanValues, ih, List.map_cons]

lemma respanPairs_eq (ps : List PairNode) : respanPairs f ps = ps.map (PairNode.respan f) := by
  induction ps with
  | nil => rfl
  | cons p ps ih =>
      obtain ⟨name, value, span⟩ := p
      rw [respanPairs, ih, List.map_cons, PairNode.respan]

lemma Node.respan_nested (a : AnnotationNode) :
    (Node.nested a).respan f = .nested (a.respan f) := by
  obtain ⟨name, pairs, span⟩ := a
  rw [Node.respan, AnnotationNode.respan]

lemma Node.span_respan (n : Node) : (n.respan f).span = f n.span := by
  cases n with
  | literal => rfl
  | array => rw [Node.respan, Node.span, Node.span]
  | nested a => rw [Node.respan_nested]; rfl

/-! ## Derivations -/

namespace Grammar

variable {ts : List Token} {n m : Node} {a b : AnnotationNode} {depth deep : Nat}

/-- If each item is derived from its tokens when all places change, so is the list of them. -/
lemma Separated.map_respan {α : Type} {Item Item' : List Token → α → Nat → Prop} {g : α → α}
    {xs : List α}
    (each : ∀ {ts x depth}, Item ts x depth → Item' (ts.map (Token.respan f)) (g x) depth)
    (items : Separated Item ts xs depth) :
    Separated Item' (ts.map (Token.respan f)) (xs.map g) depth := by
  induction items with
  | last item => exact .last (each item)
  | more item mark items ih =>
      rw [List.map_append, List.map_cons, List.map_cons]
      exact .more (each item) mark ih

/-- **Where a change of spans keeps joins, it takes derivations to derivations.** -/
theorem inductive_respan (joins : ∀ s t, f (s.to t) = (f s).to (f t)) :
    Inductive (fun ts n depth => IsValue (ts.map (Token.respan f)) (n.respan f) depth)
      (fun ts p depth => IsPair (ts.map (Token.respan f)) (p.respan f) depth)
      fun ts a depth => IsAnnotation (ts.map (Token.respan f)) (a.respan f) depth where
  literal raw := .literal (t := Token.respan f _) raw
  emptyArray left right := by
    rw [Node.respan, joins]
    exact .emptyArray left right
  array left items right := by
    rw [Node.respan, joins, respanValues_eq]
    simp only [List.map_cons, List.map_append, List.map_nil]
    exact .array (show (Token.respan f _).kind = _ from left) (items.map_respan And.right)
      (show (Token.respan f _).kind = _ from right)
  nested mark _ inner := by
    rw [Node.respan_nested, AnnotationNode.respan, joins]
    exact .nested (show (Token.respan f _).kind = _ from mark) inner
  pair named mark _ value := by
    rw [PairNode.respan, joins, ← Node.span_respan (f := f)]
    exact .pair (show (Token.respan f _).kind = _ from named) mark value
  bare named := .bare (show (Token.respan f _).kind = _ from named)
  empty named left right := by
    rw [AnnotationNode.respan, joins]
    exact .empty (show (Token.respan f _).kind = _ from named) left
      (show (Token.respan f _).kind = _ from right)
  pairs named left items right := by
    rw [AnnotationNode.respan, joins, respanPairs_eq]
    simp only [List.map_cons, List.map_append, List.map_nil]
    exact .arguments (show (Token.respan f _).kind = _ from named) left
      (.pairs (items.map_respan And.right)) (show (Token.respan f _).kind = _ from right)
  lone named left _ value right := by
    rw [AnnotationNode.respan, joins]
    simp only [List.map_cons, List.map_append, List.map_nil, respanPairs, ← Node.span_respan]
    exact .arguments (show (Token.respan f _).kind = _ from named) left (.lone value)
      (show (Token.respan f _).kind = _ from right)

/-! ### Uniqueness -/

/-- There is a cursor in front of any tokens, if there is at least one. -/
lemma exists_cursor (ts : List Token) (t : Token) : ∃ c : Cursor, c.tokens = ts ++ [t] := by
  cases ts with
  | nil => exact ⟨⟨t, [], 0⟩, rfl⟩
  | cons u us => exact ⟨⟨u, us ++ [t], 0⟩, rfl⟩

/-- Where the same tokens are accepted for two results, these are the same. -/
lemma unique_of_accepts {α : Type} {p : Parse α} {Part : List Token → α → Nat → Prop} {room : Nat}
    {x y : α} (accepts : Parse.Accepts p Part room Parse.Delimits) (first : Part ts x depth)
    (few : depth ≤ room) (second : Part ts y deep) (few' : deep ≤ room) : x = y := by
  obtain ⟨c, tokens⟩ := exists_cursor ts (.endOfInput 0)
  have follow : Parse.Delimits (Token.endOfInput 0).kind := .inr (.inr (.inr rfl))
  obtain ⟨d, ran, -⟩ := accepts.complete first few follow tokens
  obtain ⟨d', ran', -⟩ := accepts.complete second few' follow tokens
  rw [ran] at ran'
  cases ran'
  rfl

/-- **The tokens of a value determine it.** -/
theorem isValue_unique (first : IsValue ts n depth) (second : IsValue ts m deep) : n = m :=
  unique_of_accepts (Parse.accepts_value (max depth deep)) first (le_max_left _ _) second
    (le_max_right _ _)

/-- The same tokens are derived as one annotation only, at whatever depth. -/
theorem annotated_unique (first : IsAnnotation ts a depth) (second : IsAnnotation ts b deep) :
    a = b :=
  unique_of_accepts (Parse.accepts_annotations (Parse.acceptsInside (max depth deep))) first
    (le_max_left _ _) second (le_max_right _ _)

end Grammar

/-! ## Moving spans -/

/-- The span so many bytes further on. -/
def Span.later (bytes : Nat) (span : Span) : Span := ⟨span.start + bytes, span.stop + bytes⟩

/-- The span so many bytes further to the front. -/
def Span.earlier (bytes : Nat) (span : Span) : Span := ⟨span.start - bytes, span.stop - bytes⟩

lemma Span.later_to (bytes : Nat) (s t : Span) :
    (s.to t).later bytes = (s.later bytes).to (t.later bytes) := by
  simp only [Span.later, Span.to, Nat.add_min_add_right, Nat.add_max_add_right]

lemma Span.earlier_to (bytes : Nat) (s t : Span) :
    (s.to t).earlier bytes = (s.earlier bytes).to (t.earlier bytes) := by
  simp only [Span.earlier, Span.to, Nat.sub_min_sub_right, Nat.sub_max_sub_right]

end DocAnnotations
