import DocAnnotations.Node
import DocAnnotations.Token.Lexer

/-!
# Reading a literal

The grammar of literals, over tokens:

* `root` is an optional `@`, an annotation and the end of input;
* `annotation` is a name, and in parentheses, all of it optional, either pairs with commas between
  them or one value;
* `pair` is a name, `=` and a value;
* `value` is a raw literal, a name, an array in braces, or `@` and an annotation.

Each opening parenthesis, each opening brace and each `@` before a nested annotation is one level;
at most `maxNesting` levels may be open at a time.  A reading that fails leaves its cursor where it
stopped.
-/

namespace DocAnnotations

/-! ## Errors -/

/-- Why a text is no literal. -/
inductive ParseError where
  | unexpectedToken (found expected : String) (offset : Nat)
  | unexpectedEnd (expected : String) (offset : Nat)
  /-- The input ends before a delimiter that was opened is closed. -/
  | unbalanced (delimiter : Char) (offset : Nat)
  | unterminated (text : String) (offset : Nat)
  | trailingInput (found : String) (offset : Nat)
  | tooDeep (limit offset : Nat)
  /-- The text has no tokens at all. -/
  | lexical (error : LexError)
deriving DecidableEq

namespace ParseError

/-- The byte offset that the error is about. -/
def offset : ParseError → Nat
  | unexpectedToken _ _ offset => offset
  | unexpectedEnd _ offset => offset
  | unbalanced _ offset => offset
  | unterminated _ offset => offset
  | trailingInput _ offset => offset
  | tooDeep _ offset => offset
  | lexical (.splitCharacter offset) => offset

/-- The error of the tokens, where that is what the error is. -/
def lexError? : ParseError → Option LexError
  | lexical error => some error
  | _ => none

/-- The text of the error. -/
def message : ParseError → String
  | unexpectedToken found expected offset =>
    s!"unexpected {found} at offset {offset}, expected {expected}"
  | unexpectedEnd expected offset =>
    s!"unexpected end of input at offset {offset}, expected {expected}"
  | unbalanced delimiter offset => s!"unclosed `{delimiter}` opened at offset {offset}"
  | unterminated text offset => s!"unterminated literal {text} at offset {offset}"
  | trailingInput found offset => s!"trailing input `{found}` at offset {offset}"
  | tooDeep limit offset => s!"nesting deeper than {limit} levels at offset {offset}"
  | lexical (.splitCharacter offset) => s!"number without a kind at offset {offset}"

/-- The error for a token that stands where something else was expected. -/
def ofToken (t : Token) (expected : String) : ParseError :=
  match t.kind with
  | .endOfInput => unexpectedEnd expected t.span.start
  | .unterminated => unterminated t.text t.span.start
  | kind => unexpectedToken s!"{kind.describe} `{t.text}`" expected t.span.start

end ParseError

/-! ## The cursor -/

/-- How many levels of annotations and arrays may be open. -/
def maxNesting : Nat := 256

/-- A place in a list of tokens, with the number of levels open there. -/
structure Cursor where
  current : Token
  ahead : List Token
  depth : Nat
deriving Inhabited

namespace Cursor

/-- The start of a list of tokens.  A list that does not close with the end of input gets one. -/
def ofTokens (tokens : List Token) : Cursor :=
  let closing := match tokens.getLast? with
    | none => [Token.endOfInput 0]
    | some last => if last.kind = .endOfInput then [] else [Token.endOfInput last.span.stop]
  match tokens ++ closing with
  | [] => ⟨Token.endOfInput 0, [], 0⟩
  | t :: ts => ⟨t, ts, 0⟩

/-- The next place.  The end of input is never passed. -/
def next (c : Cursor) : Cursor :=
  if c.current.kind = .endOfInput then c
  else match c.ahead with
    | [] => c
    | t :: ts => { c with current := t, ahead := ts }

/-- The kind of the token behind the current one. -/
def kindAhead (c : Cursor) : TokenKind :=
  match c.ahead with
  | [] => .endOfInput
  | t :: _ => t.kind

/-- How many more levels may be opened. -/
def left (c : Cursor) : Nat := maxNesting - c.depth

end Cursor

/-- A reading moves the cursor on and gives a result, or stops there with an error. -/
abbrev Parse := EStateM ParseError Cursor

namespace Parse

/-! ## Single tokens -/

/-- The token at the cursor. -/
def current : Parse Token := return (← get).current

/-- Passes the token at the cursor. -/
def advance : Parse Unit := modify Cursor.next

/-- Whether the token at the cursor has the given kind. -/
def check (kind : TokenKind) : Parse Bool := return (← get).current.kind == kind

/-- Stops at the current token. -/
def unexpected {α : Type} (expected : String) : Parse α := do
  throw (ParseError.ofToken (← current) expected)

/-- Takes a token of the given kind. -/
def expect (kind : TokenKind) (expected : String) : Parse Token := do
  let t ← current
  if t.kind = kind then
    advance
    return t
  else unexpected expected

/-- Takes the closing delimiter that matches the one at `opened`.  Where the input ends first, the
error is about the opening one. -/
def expectClosing (kind : TokenKind) (delimiter : Char) (opened : Span) : Parse Span := do
  let t ← current
  if t.kind = kind then
    advance
    return t.span
  else if t.kind = .endOfInput then throw (.unbalanced delimiter opened.start)
  else unexpected s!"`,` or {kind.describe}"

/-! ## Levels and lists -/

/-- Opens a level for `body` and closes it again.  `inner` reads values on that level; without it
the limit is reached. -/
def nested {α : Type} (inner : Option (Parse Node)) (opened : Span)
    (body : Parse Node → Parse α) : Parse α := do
  modify fun c => { c with depth := c.depth + 1 }
  match inner with
  | none => throw (.tooDeep maxNesting opened.start)
  | some value =>
    let a ← body value
    modify fun c => { c with depth := c.depth - 1 }
    return a

/-- Further items, each behind a comma, added to those found.  The list only bounds their number:
every item takes a token from it. -/
def moreItems {α : Type} (item : Parse α) : List Token → List α → Parse (List α)
  | [], found => return found.reverse
  | _ :: tokens, found => do
    if ← check .comma then
      advance
      let a ← item
      moreItems item tokens (a :: found)
    else return found.reverse

/-- One or more items with commas between them. -/
def items {α : Type} (item : Parse α) : Parse (List α) := do
  let first ← item
  moreItems item (← get).ahead [first]

/-! ## The grammar -/

/-- A name, `=` and a value. -/
def pair (value : Parse Node) : Parse PairNode := do
  let name ← expect .identifier "element name"
  let _ ← expect .equals "`=`"
  let v ← value
  return ⟨name.text, v, name.span.to v.span⟩

/-- What stands in parentheses: pairs, or one value, which is the value of the element `value`. -/
def arguments (value : Parse Node) : Parse (List PairNode) := do
  if (← check .identifier) && (← get).kindAhead == .equals then items (pair value)
  else
    let v ← value
    return [⟨"value", v, v.span⟩]

/-- An annotation; `inner` reads the values in its parentheses. -/
def annotation (inner : Option (Parse Node)) : Parse AnnotationNode := do
  let name ← expect .identifier "annotation name"
  if ← check .leftParen then
    let opened := (← current).span
    advance
    nested inner opened fun value => do
      let pairs ← if ← check .rightParen then pure [] else arguments value
      let closed ← expectClosing .rightParen '(' opened
      return ⟨name.text, pairs, name.span.to closed⟩
  else return ⟨name.text, [], name.span⟩

/-- An array, the cursor at its opening brace. -/
def array (inner : Option (Parse Node)) : Parse Node := do
  let opened := (← current).span
  advance
  nested inner opened fun value => do
    let elements ← if ← check .rightBrace then pure [] else items value
    let closed ← expectClosing .rightBrace '{' opened
    return .array elements (opened.to closed)

/-- A value; `inner` reads values one level further in, and `innermost` two levels. -/
def valueWith (inner innermost : Option (Parse Node)) : Parse Node := do
  let t ← current
  match t.kind.literalKind? with
  | some kind =>
    advance
    return .literal kind t.text t.span
  | none =>
    if t.kind = .leftBrace then array inner
    else if t.kind = .atSign then
      advance
      nested inner t.span fun _ => do
        let a ← annotation innermost
        return .nested { a with span := t.span.to a.span }
    else unexpected "value"

/-- A value, where the given number of levels may still be opened. -/
def value : Nat → Parse Node
  | 0 => valueWith none none
  | 1 => valueWith (some (value 0)) none
  | left + 2 => valueWith (some (value (left + 1))) (some (value left))

/-- How values are read one level further in than `left` levels allow, if they may be. -/
def inside : Nat → Option (Parse Node)
  | 0 => none
  | left + 1 => some (value left)

/-- A value at the cursor. -/
def nextValue : Parse Node := do value (← get).left

/-- An annotation at the cursor, after an optional `@`. -/
def nextRoot : Parse AnnotationNode := do
  if ← check .atSign then advance
  annotation (inside (← get).left)

/-- Nothing but the end of input follows. -/
def expectEnd : Parse Unit := do
  let t ← current
  match t.kind with
  | .endOfInput => return
  | .unterminated => unexpected "end of input"
  | _ => throw (.trailingInput t.text t.span.start)

end Parse

/-! ## Whole texts -/

/-- Reads all of a text. -/
def Parse.runText {α : Type} (p : Parse α) (text : String) : Except ParseError α :=
  match tokenize text with
  | .error e => .error (.lexical e)
  | .ok tokens =>
    match (do let a ← p; Parse.expectEnd; return a : Parse α).run (Cursor.ofTokens tokens) with
    | .ok a _ => .ok a
    | .error e _ => .error e

/-- The tree of an annotation literal. -/
def AnnotationNode.parse (text : String) : Except ParseError AnnotationNode :=
  Parse.nextRoot.runText text

/-- The tree of a lone value. -/
def Node.parse (text : String) : Except ParseError Node := Parse.nextValue.runText text

end DocAnnotations
