import DocAnnotations.Node

/-!
# The grammar of literals

The rules by which sequences of tokens are literals, apart from any way to read them:

* `root` is an optional `@`, an annotation and the end of input;
* `annotation` is a name, and in parentheses, all of it optional, arguments;
* `arguments` are one or more pairs with commas between them, or one value;
* `pair` is a name, `=` and a value;
* `value` is a raw literal, a name, `@` and an annotation, or an array, which is any number of
  values with commas between them in braces.

Each derivation relates all of its tokens to the tree that they stand for and to its nesting, the
greatest number of levels that are open at once: an opening parenthesis, an opening brace and an
`@` before a nested annotation open one level each.
-/

namespace DocAnnotations.Grammar

/-- One or more items with commas between them. -/
inductive Separated {α : Type} (Item : List Token → α → Nat → Prop) :
    List Token → List α → Nat → Prop
  | last {tokens : List Token} {x : α} {depth : Nat} (item : Item tokens x depth) :
      Separated Item tokens [x] depth
  | more {tokens others : List Token} {comma : Token} {x : α} {xs : List α} {depth deep : Nat}
      (item : Item tokens x depth) (mark : comma.kind = .comma)
      (items : Separated Item others xs deep) :
      Separated Item (tokens ++ comma :: others) (x :: xs) (max depth deep)

mutual

/-- A value. -/
inductive IsValue : List Token → Node → Nat → Prop
  | literal {t : Token} {kind : LiteralKind} (raw : t.kind.literalKind? = some kind) :
      IsValue [t] (.literal kind t.text t.span) 0
  | emptyArray {opened closed : Token} (left : opened.kind = .leftBrace)
      (right : closed.kind = .rightBrace) :
      IsValue [opened, closed] (.array [] (opened.span.to closed.span)) 1
  | array {opened closed : Token} {tokens : List Token} {elements : List Node} {depth : Nat}
      (left : opened.kind = .leftBrace) (items : Separated IsValue tokens elements depth)
      (right : closed.kind = .rightBrace) :
      IsValue (opened :: tokens ++ [closed]) (.array elements (opened.span.to closed.span))
        (depth + 1)
  | nested {sign : Token} {tokens : List Token} {a : AnnotationNode} {depth : Nat}
      (mark : sign.kind = .atSign) (inner : IsAnnotation tokens a depth) :
      IsValue (sign :: tokens) (.nested { a with span := sign.span.to a.span }) (depth + 1)

/-- A pair of name and value. -/
inductive IsPair : List Token → PairNode → Nat → Prop
  | pair {name equals : Token} {tokens : List Token} {v : Node} {depth : Nat}
      (named : name.kind = .identifier) (mark : equals.kind = .equals)
      (value : IsValue tokens v depth) :
      IsPair (name :: equals :: tokens) ⟨name.text, v, name.span.to v.span⟩ depth

/-- What stands in the parentheses of an annotation.  A lone value is a pair named `value`. -/
inductive IsArguments : List Token → List PairNode → Nat → Prop
  | pairs {tokens : List Token} {pairs : List PairNode} {depth : Nat}
      (items : Separated IsPair tokens pairs depth) : IsArguments tokens pairs depth
  | lone {tokens : List Token} {v : Node} {depth : Nat} (value : IsValue tokens v depth) :
      IsArguments tokens [⟨"value", v, v.span⟩] depth

/-- An annotation. -/
inductive IsAnnotation : List Token → AnnotationNode → Nat → Prop
  | bare {name : Token} (named : name.kind = .identifier) :
      IsAnnotation [name] ⟨name.text, [], name.span⟩ 0
  | empty {name opened closed : Token} (named : name.kind = .identifier)
      (left : opened.kind = .leftParen) (right : closed.kind = .rightParen) :
      IsAnnotation [name, opened, closed] ⟨name.text, [], name.span.to closed.span⟩ 1
  | arguments {name opened closed : Token} {tokens : List Token} {pairs : List PairNode}
      {depth : Nat} (named : name.kind = .identifier) (left : opened.kind = .leftParen)
      (inner : IsArguments tokens pairs depth) (right : closed.kind = .rightParen) :
      IsAnnotation (name :: opened :: tokens ++ [closed])
        ⟨name.text, pairs, name.span.to closed.span⟩ (depth + 1)

end

/-- A whole annotation literal; an `@` in front of it opens no level. -/
inductive IsRoot : List Token → AnnotationNode → Nat → Prop
  | plain {tokens : List Token} {closing : Token} {a : AnnotationNode} {depth : Nat}
      (inner : IsAnnotation tokens a depth) (final : closing.kind = .endOfInput) :
      IsRoot (tokens ++ [closing]) a depth
  | marked {sign : Token} {tokens : List Token} {closing : Token} {a : AnnotationNode}
      {depth : Nat} (mark : sign.kind = .atSign) (inner : IsAnnotation tokens a depth)
      (final : closing.kind = .endOfInput) : IsRoot (sign :: tokens ++ [closing]) a depth

/-- A whole lone value. -/
inductive IsLoneValue : List Token → Node → Nat → Prop
  | value {tokens : List Token} {closing : Token} {n : Node} {depth : Nat}
      (inner : IsValue tokens n depth) (final : closing.kind = .endOfInput) :
      IsLoneValue (tokens ++ [closing]) n depth

end DocAnnotations.Grammar
