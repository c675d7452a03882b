import DocAnnotations.Text.Affix
import DocAnnotations.Token

/-!
# The tree of a literal

An annotation literal is a name with pairs of element name and value; a value is a raw literal, an
array of values or another annotation.  Raw literals keep their text: they mean nothing until they
meet the declared type of an element.

**Traversal.**  `Node.walk` visits a tree from the outside in, each node with its depth.

**Canonical text.**  `AnnotationNode.render` writes a tree in its canonical form, pairs as `name =
value`, one blank after each comma.
-/

namespace DocAnnotations

open Text

/-- The kinds of raw literal. -/
inductive LiteralKind where
  | identifier
  | boolean
  | char
  | string
  | integer
  | float
  | hex
  | octal
deriving DecidableEq, Inhabited

/-- The kind of literal that a token is, names included. -/
def TokenKind.literalKind? : TokenKind → Option LiteralKind
  | .identifier => some .identifier
  | .boolean => some .boolean
  | .char => some .char
  | .string => some .string
  | .integer => some .integer
  | .float => some .float
  | .hex => some .hex
  | .octal => some .octal
  | _ => none

mutual

/-- A value as it is written. -/
inductive Node where
  | literal (kind : LiteralKind) (text : String) (span : Span)
  | array (elements : List Node) (span : Span)
  | nested (a : AnnotationNode)

/-- An annotation as it is written: `Name(key = value, …)`, `Name(value)` or a bare `Name`. -/
structure AnnotationNode where
  name : String
  pairs : List PairNode
  span : Span

/-- One assignment `name = value`.  A lone value is a pair named `value`. -/
structure PairNode where
  name : String
  value : Node
  span : Span

end

instance : Inhabited Node := ⟨.literal .identifier "" {}⟩

instance : Inhabited AnnotationNode := ⟨⟨"", [], {}⟩⟩

namespace Node

/-- Where a value stands. -/
def span : Node → Span
  | .literal _ _ span => span
  | .array _ span => span
  | .nested a => a.span

/-- The values directly below a value. -/
def children : Node → List Node
  | .literal .. => []
  | .array elements _ => elements
  | .nested a => a.pairs.map PairNode.value

/-- The word by which messages name what was found. -/
def kindName : Node → String
  | .literal .identifier text _ =>
    if ".class".toList.isSuffixOf text.toList then "Class" else "identifier"
  | .literal .integer text _ =>
    if text.toList.getLast? == some 'L' || text.toList.getLast? == some 'l' then "long" else "int"
  | .literal .boolean .. => "boolean"
  | .literal .char .. => "char"
  | .literal .string .. => "String"
  | .literal .float .. => "float"
  | .literal .hex .. => "hex"
  | .literal .octal .. => "octal"
  | .array .. => "array type"
  | .nested _ => "annotation"

end Node

/-! ## Traversal -/

mutual

/-- A value and all values below it, each before those below it, with their depths. -/
def Node.walk (depth : Nat) : Node → List (Node × Nat)
  | .literal kind text span => [(.literal kind text span, depth)]
  | .array elements span => (.array elements span, depth) :: walkValues (depth + 1) elements
  | .nested ⟨name, pairs, span⟩ =>
    (.nested ⟨name, pairs, span⟩, depth) :: walkPairs (depth + 1) pairs

/-- The traversal of several values. -/
def walkValues (depth : Nat) : List Node → List (Node × Nat)
  | [] => []
  | n :: ns => n.walk depth ++ walkValues depth ns

/-- The traversal of the values of several pairs. -/
def walkPairs (depth : Nat) : List PairNode → List (Node × Nat)
  | [] => []
  | ⟨_, value, _⟩ :: ps => value.walk depth ++ walkPairs depth ps

end

/-- All values of an annotation; those of its own pairs have depth 1. -/
def AnnotationNode.walk (a : AnnotationNode) : List (Node × Nat) := walkPairs 1 a.pairs

/-! ## Canonical text -/

/-- An annotation given the texts of its pairs; without pairs there are no parentheses. -/
def annotationChars (name : String) (pairs : List (List Char)) : List Char :=
  if pairs.isEmpty then name.toList
  else name.toList ++ '(' :: commaSeparated pairs ++ [')']

mutual

/-- The canonical text of a value. -/
def Node.chars : Node → List Char
  | .literal _ text _ => text.toList
  | .array elements _ => '{' :: commaSeparated (valuesChars elements) ++ ['}']
  | .nested ⟨name, pairs, _⟩ => '@' :: annotationChars name (pairsChars pairs)

/-- The canonical texts of several values. -/
def valuesChars : List Node → List (List Char)
  | [] => []
  | n :: ns => n.chars :: valuesChars ns

/-- The canonical texts of several pairs. -/
def pairsChars : List PairNode → List (List Char)
  | [] => []
  | ⟨name, value, _⟩ :: ps => (name.toList ++ " = ".toList ++ value.chars) :: pairsChars ps

end

/-- The canonical text of a value. -/
def Node.render (n : Node) : String := String.ofList n.chars

/-- The canonical text of a whole literal. -/
def AnnotationNode.render (a : AnnotationNode) : String :=
  String.ofList (annotationChars a.name (pairsChars a.pairs))

end DocAnnotations
