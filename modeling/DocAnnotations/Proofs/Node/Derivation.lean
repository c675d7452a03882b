import DocAnnotations.Node.Grammar
import DocAnnotations.Proofs.Token.Lexeme

/-!
# Induction on derivations

A derivation of a value goes through lists of values and pairs, annotations and back to values.

**The induction.**  `Inductive V P A` lists what is to be shown of values, pairs and annotations,
rule by rule, where it is given for each item of a list.  **`Inductive.of_value`** is the induction
on all of these at once, and `Inductive.of_annotated` the same for whole annotations.

**The tokens of a derivation.**  Its first use says which tokens a derivation has: opening
delimiters with the closing ones that match them, and words, commas and signs between them
(`balanced_of_isValue`).
-/

namespace DocAnnotations.Grammar

variable {α : Type} {Item Item' : List Token → α → Nat → Prop} {ts us : List Token} {xs : List α}
  {x : α} {depth : Nat}

/-! ## The induction -/

/-- Items may be replaced in a list by anything that follows for each of them. -/
lemma Separated.imp (each : ∀ {ts x depth}, Item ts x depth → Item' ts x depth)
    (items : Separated Item ts xs depth) : Separated Item' ts xs depth := by
  induction items with
  | last item => exact .last (each item)
  | more item mark items ih => exact .more (each item) mark ih

section

variable {V : List Token → Node → Nat → Prop} {P : List Token → PairNode → Nat → Prop}
  {A : List Token → AnnotationNode → Nat → Prop}

/-- What has to be shown of every rule to have it of all derivations. -/
structure Inductive (V : List Token → Node → Nat → Prop) (P : List Token → PairNode → Nat → Prop)
    (A : List Token → AnnotationNode → Nat → Prop) : Prop where
  literal : ∀ {t : Token} {kind : LiteralKind}, t.kind.literalKind? = some kind →
    V [t] (.literal kind t.text t.span) 0
  emptyArray : ∀ {opened closed : Token}, opened.kind = .leftBrace → closed.kind = .rightBrace →
    V [opened, closed] (.array [] (opened.span.to closed.span)) 1
  array : ∀ {opened closed : Token} {ts : List Token} {ns : List Node} {depth : Nat},
    opened.kind = .leftBrace →
    Separated (fun ts n depth => IsValue ts n depth ∧ V ts n depth) ts ns depth →
    closed.kind = .rightBrace →
    V (opened :: ts ++ [closed]) (.array ns (opened.span.to closed.span)) (depth + 1)
  nested : ∀ {sign : Token} {ts : List Token} {a : AnnotationNode} {depth : Nat},
    sign.kind = .atSign → IsAnnotation ts a depth → A ts a depth →
    V (sign :: ts) (.nested { a with span := sign.span.to a.span }) (depth + 1)
  pair : ∀ {name equals : Token} {ts : List Token} {v : Node} {depth : Nat},
    name.kind = .identifier → equals.kind = .equals → IsValue ts v depth → V ts v depth →
    P (name :: equals :: ts) ⟨name.text, v, name.span.to v.span⟩ depth
  bare : ∀ {name : Token}, name.kind = .identifier → A [name] ⟨name.text, [], name.span⟩ 0
  empty : ∀ {name opened closed : Token}, name.kind = .identifier → opened.kind = .leftParen →
    closed.kind = .rightParen →
    A [name, opened, closed] ⟨name.text, [], name.span.to closed.span⟩ 1
  pairs : ∀ {name opened closed : Token} {ts : List Token} {ps : List PairNode} {depth : Nat},
    name.kind = .identifier → opened.kind = .leftParen →
    Separated (fun ts p depth => IsPair ts p depth ∧ P ts p depth) ts ps depth →
    closed.kind = .rightParen →
    A (name :: opened :: ts ++ [closed]) ⟨name.text, ps, name.span.to closed.span⟩ (depth + 1)
  lone : ∀ {name opened closed : Token} {ts : List Token} {v : Node} {depth : Nat},
    name.kind = .identifier → opened.kind = .leftParen → IsValue ts v depth → V ts v depth →
    closed.kind = .rightParen →
    A (name :: opened :: ts ++ [closed])
      ⟨name.text, [⟨"value", v, v.span⟩], name.span.to closed.span⟩ (depth + 1)

mutual

/-- **What every rule keeps is true of all values.** -/
theorem Inductive.of_value (rules : Inductive V P A) :
    ∀ {ts : List Token} {n : Node} {depth : Nat}, IsValue ts n depth → V ts n depth
  | _, _, _, .literal raw => rules.literal raw
  | _, _, _, .emptyArray left right => rules.emptyArray left right
  | _, _, _, .array left items right => rules.array left (rules.of_values items) right
  | _, _, _, .nested mark inner => rules.nested mark inner (rules.of_annotated inner)

/-- What holds of each derived value holds of each value in a list. -/
lemma Inductive.of_values (rules : Inductive V P A) :
    ∀ {ts : List Token} {ns : List Node} {depth : Nat}, Separated IsValue ts ns depth →
    Separated (fun ts n depth => IsValue ts n depth ∧ V ts n depth) ts ns depth
  | _, _, _, .last item => .last ⟨item, rules.of_value item⟩
  | _, _, _, .more item comma items =>
      .more ⟨item, rules.of_value item⟩ comma (rules.of_values items)

/-- What holds of each derived value, and passes to pairs, holds of each pair. -/
lemma Inductive.of_pair (rules : Inductive V P A) :
    ∀ {ts : List Token} {p : PairNode} {depth : Nat}, IsPair ts p depth → P ts p depth
  | _, _, _, .pair named mark value => rules.pair named mark value (rules.of_value value)

/-- What holds of each derived pair holds of each pair in a list. -/
lemma Inductive.of_pairs (rules : Inductive V P A) :
    ∀ {ts : List Token} {ps : List PairNode} {depth : Nat}, Separated IsPair ts ps depth →
    Separated (fun ts p depth => IsPair ts p depth ∧ P ts p depth) ts ps depth
  | _, _, _, .last item => .last ⟨item, rules.of_pair item⟩
  | _, _, _, .more item comma items =>
      .more ⟨item, rules.of_pair item⟩ comma (rules.of_pairs items)

/-- **What every rule keeps is true of all annotations.** -/
theorem Inductive.of_annotated (rules : Inductive V P A) :
    ∀ {ts : List Token} {a : AnnotationNode} {depth : Nat}, IsAnnotation ts a depth → A ts a depth
  | _, _, _, .bare named => rules.bare named
  | _, _, _, .empty named left right => rules.empty named left right
  | _, _, _, .arguments named left (.pairs items) right =>
      rules.pairs named left (rules.of_pairs items) right
  | _, _, _, .arguments named left (.lone value) right =>
      rules.lone named left value (rules.of_value value) right

end

end

/-! ## The tokens of a derivation -/

/-- A delimiter and the one that closes it. -/
def Matches (opened closed : Token) : Prop :=
  (opened.kind = .leftParen ∧ closed.kind = .rightParen) ∨
    (opened.kind = .leftBrace ∧ closed.kind = .rightBrace)

/-- A token that stands between delimiters and is none itself. -/
def IsPlain (t : Token) : Prop :=
  t.kind.isWord = true ∨ t.kind = .comma ∨ t.kind = .equals ∨ t.kind = .atSign

/-- Every delimiter has the one that matches it, and all else is plain. -/
inductive Balanced : List Token → Prop
  | nil : Balanced []
  | plain {t : Token} {ts : List Token} (plain : IsPlain t) (rest : Balanced ts) :
      Balanced (t :: ts)
  | enclosed {opened closed : Token} {ts us : List Token} (pair : Matches opened closed)
      (inner : Balanced ts) (rest : Balanced us) : Balanced (opened :: ts ++ closed :: us)

namespace Balanced

/-- Balanced tokens one after the other are balanced. -/
lemma append (first : Balanced ts) (second : Balanced us) : Balanced (ts ++ us) := by
  induction first with
  | nil => exact second
  | plain plain rest ih => exact .plain plain ih
  | enclosed pair inner rest _ ih =>
      rw [List.append_assoc, List.cons_append]
      exact .enclosed pair inner ih

lemma single {t : Token} (plain : IsPlain t) : Balanced [t] := .plain plain .nil

/-- Balanced tokens between a pair of matching brackets are balanced. -/
lemma between {opened closed : Token} (pair : Matches opened closed) (inner : Balanced ts) :
    Balanced (opened :: ts ++ [closed]) := .enclosed pair inner .nil

/-- If each item of a list is balanced, so is the list. -/
lemma separated (each : ∀ {ts x depth}, Item ts x depth → Balanced ts)
    (items : Separated Item ts xs depth) : Balanced ts := by
  induction items with
  | last item => exact each item
  | more item mark items ih => exact (each item).append (.plain (.inr (.inl mark)) ih)

/-- A balanced token is a word or a mark, and not the end of input. -/
lemma kinds (h : Balanced ts) : ∀ t ∈ ts, (t.kind.isWord = true ∨ t.kind.isMark = true) ∧
    t.kind ≠ .endOfInput := by
  induction h with
  | nil => simp
  | plain plain rest ih =>
      refine List.forall_mem_cons.2 ⟨?_, ih⟩
      rcases plain with word | mark | mark | mark
      · refine ⟨.inl word, fun final => ?_⟩
        rw [final] at word
        cases word
      all_goals exact ⟨.inr (by rw [mark]; rfl), by rw [mark]; decide⟩
  | @enclosed opened closed ts us pair inner rest ih ih' =>
      have delimiters : ∀ t ∈ [opened, closed], t.kind.isMark = true ∧ t.kind ≠ .endOfInput := by
        rcases pair with ⟨left, right⟩ | ⟨left, right⟩ <;> simp [left, right, TokenKind.isMark]
      intro t mem
      simp only [List.cons_append, List.mem_cons, List.mem_append] at mem
      rcases mem with rfl | mem | rfl | mem
      · exact (delimiters t (by simp)).imp_left .inr
      · exact ih t mem
      · exact (delimiters t (by simp)).imp_left .inr
      · exact ih' t mem

end Balanced

lemma isPlain_of_identifier {t : Token} (named : t.kind = .identifier) : IsPlain t :=
  .inl (by rw [named]; rfl)

/-- **The tokens of every derivation are balanced.** -/
theorem inductive_balanced : Inductive (fun ts _ _ => Balanced ts) (fun ts _ _ => Balanced ts)
    fun ts _ _ => Balanced ts where
  literal raw := .single (.inl (by rw [TokenKind.isWord, raw]; rfl))
  emptyArray left right := .between (.inr ⟨left, right⟩) .nil
  array left items right := .between (.inr ⟨left, right⟩) (.separated And.right items)
  nested mark _ inner := .plain (.inr (.inr (.inr mark))) inner
  pair named mark _ value :=
    .plain (isPlain_of_identifier named) (.plain (.inr (.inr (.inl mark))) value)
  bare named := .single (isPlain_of_identifier named)
  empty named left right :=
    .plain (isPlain_of_identifier named) (.between (.inl ⟨left, right⟩) .nil)
  pairs named left items right :=
    .plain (isPlain_of_identifier named)
      (.between (.inl ⟨left, right⟩) (.separated And.right items))
  lone named left _ value right :=
    .plain (isPlain_of_identifier named) (.between (.inl ⟨left, right⟩) value)

/-- The tokens of each value are balanced, at every depth. -/
lemma balanced_of_isValue {n : Node} (derived : IsValue ts n depth) : Balanced ts :=
  inductive_balanced.of_value derived

lemma balanced_of_annotated {a : AnnotationNode} (derived : IsAnnotation ts a depth) :
    Balanced ts :=
  inductive_balanced.of_annotated derived

end DocAnnotations.Grammar
